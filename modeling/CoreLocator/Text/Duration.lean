/-! Spans of time in the largest unit of which they hold at least one: whole milliseconds, or
seconds with as many decimals as there are. -/
namespace CoreLocator.Text

/-- The three digits of a thousandth, without zeros at the end. -/
def thousandths (n : Nat) : List Char :=
  let digits := [n / 100, n / 10, n].map fun d => Nat.digitChar (d % 10)
  (digits.reverse.dropWhile (· == '0')).reverse

def milliseconds (n : Nat) : String :=
  if n = 0 then "0ns"
  else if n < 1000 then s!"{n}ms"
  else
    match thousandths (n % 1000) with
    | [] => s!"{n / 1000}s"
    | decimals => s!"{n / 1000}.{String.ofList decimals}s"

end CoreLocator.Text
