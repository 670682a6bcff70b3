import CoreLocator.Decimal

/-! Paths into a document: keys joined by dots, each with any number of bracketed indices behind
it, such as `a.b[0][1].c`. An index may also stand without a key. -/
namespace CoreLocator.Json

inductive Step
  | key (name : Bytes)
  | index (n : Nat)
  deriving DecidableEq, Repr

abbrev Path := List Step

namespace Path

/-- The bracketed indices that make up all of `s`. -/
def indices? : Bytes → Option Path
  | [] => some []
  | b :: s =>
    if b = 0x5B then
      match _h : Bytes.cut? 0x5D s with
      | none => none
      | some (inner, rest) =>
        match Decimal.whole? Decimal.wordLimit inner, indices? rest with
        | some n, some steps => some (.index n :: steps)
        | _, _ => none
    else none
termination_by s => s.length
decreasing_by
  have := Bytes.length_of_cut? _h
  simp only [List.length_cons]
  omega

/-- One part between dots: a key and its indices, of which only one may be missing. -/
def part? (s : Bytes) : Option Path :=
  match s.span (· != 0x5B) with
  | ([], []) => none
  | ([], rest) => indices? rest
  | (name, rest) => (indices? rest).map (.key name :: ·)

/-- One leading dot is allowed. -/
def parse? (text : Bytes) : Option Path :=
  let body := match text with
    | [] => []
    | b :: s => if b = 0x2E then s else b :: s
  ((Bytes.splitAt 0x2E body).mapM part?).map List.flatten

end Path
end CoreLocator.Json
