/-!
# Sets of code points

Properties of characters are given as lists of runs: the code points from a first
to a last one, or every second of them, which is how upper and lower case letters
alternate in most scripts.

## Main definitions

* `Run`: A run of code points.
* `Run.anyContains`: Membership in a list of runs.
-/

namespace Wireform.Text

/-- The code points `first`, `first + step`, … up to `last`. -/
structure Run where
  first : Nat
  last : Nat
  step : Nat
  deriving DecidableEq

/-- Whether a code point is in the run. -/
def Run.contains (r : Run) (code : Nat) : Bool :=
  r.first ≤ code && code ≤ r.last && (code - r.first) % r.step = 0

/-- Whether a character is in one of the runs. -/
def Run.anyContains (runs : List Run) (c : Char) : Bool :=
  runs.any (·.contains c.toNat)

end Wireform.Text
