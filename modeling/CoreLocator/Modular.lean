/-! Arithmetic on remainders. -/
namespace CoreLocator.Modular

/-- Euclid's algorithm on `r` and `next`, with the factors by which `x` is multiplied to give them
modulo `p`. -/
def inverseFrom (p r next : Nat) (factor nextFactor : Int) : Nat :=
  if _h : next = 0 then (factor % p).toNat
  else inverseFrom p next (r % next) nextFactor (factor - (r / next : Nat) * nextFactor)
termination_by next
decreasing_by exact Nat.mod_lt _ (Nat.pos_of_ne_zero _h)

/-- What `x` is to be multiplied by to give one. -/
def inverse (p x : Nat) : Nat := inverseFrom p p (x % p) 0 1

def sub (p x y : Nat) : Nat := (x + (p - y % p)) % p

end CoreLocator.Modular
