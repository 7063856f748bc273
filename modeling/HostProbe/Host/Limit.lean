import HostProbe.Host.Basic
import HostProbe.Text.Decimal

/-!
The simulated host: it accepts every script of at most `limit` characters.
-/

namespace HostProbe

def boolText (b : Bool) : String := if b then "true" else "false"

namespace Host

def limitRecord (limit length : Nat) : Log.Record where
  level := .trace
  target := "vkprobe::execution::limit"
  message := "limit host: len=" ++ Text.Decimal.ofNat length ++ " limit=" ++
    Text.Decimal.ofNat limit ++ " accepted=" ++ boolText (decide (length ≤ limit))

/-- Accepts a script when it has at most `limit` characters; the state is left alone. -/
def limit {ε σ : Type} (limit : Nat) : Host ε σ :=
  ⟨fun s script =>
    .ok ⟨decide (script.length ≤ limit), s, [limitRecord limit script.length]⟩⟩

end Host

end HostProbe
