/-!
# Runs of code points

Character classes are tables of arithmetic runs of code points.
-/

namespace Rockstar.Text

/-- The code points `first`, `first + step`, `first + 2 * step`, … up to `last`. -/
structure Run where
  first : Nat
  last : Nat
  step : Nat
  deriving DecidableEq

/-- Whether the code point `n` belongs to the run. -/
def Run.has (r : Run) (n : Nat) : Bool :=
  r.first ≤ n && n ≤ r.last && (n - r.first) % r.step == 0

/-- Whether one of the runs has the code point. The runs stand in ascending order, so the search
ends at the first one that begins behind the code point. -/
def Run.covers : List Run → Nat → Bool
  | [], _ => false
  | r :: rs, n => r.first ≤ n && (r.has n || covers rs n)

end Rockstar.Text
