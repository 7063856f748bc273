/-!
What a capacity probe reports.
-/

namespace HostProbe.Capacity

/-- The length reported for a host that rejects even the shortest script. -/
def unusableLength : Int := -1

/-- `maxLength` is the longest accepted length, `headroom` what is left of it in front of the
body. -/
structure Report where
  maxLength : Int
  calls : Nat
  bodyLength : Nat
  headroom : Option Int
  deriving DecidableEq, Repr

def Report.isUsable (r : Report) : Bool := decide (r.maxLength ≠ unusableLength)

end HostProbe.Capacity
