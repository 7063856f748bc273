import HostProbe.Text.Decimal

/-!
Outcomes of scenarios and their displayed text.
-/

namespace HostProbe

inductive Outcome where
  | int (n : Int)
  | lengths (l : List Nat)
  | absent
  deriving DecidableEq, Repr

/-- Lists stand in square brackets, a missing value is called undefined. -/
def Outcome.display : Outcome → String
  | .int n => Text.Decimal.ofInt n
  | .lengths l => "[" ++ String.intercalate ", " (l.map Text.Decimal.ofNat) ++ "]"
  | .absent => "undefined"

end HostProbe
