import HostProbe.Log

/-!
Hosts: machines that accept or reject scripts. A host may change with every call and may write
log records while it answers. The type `ε` holds the faults that stop a host from answering at
all; a host over `Empty` always answers.
-/

namespace HostProbe

structure Call where
  script : String
  accepted : Bool
  deriving DecidableEq, Repr

structure Reply (σ : Type) where
  accepted : Bool
  state : σ
  log : List Log.Record

structure Host (ε σ : Type) where
  execute : σ → String → Except ε (Reply σ)

namespace Host

variable {ε σ : Type}

/-- The host that steps a state machine and writes no log. -/
def ofMachine (step : σ → String → Bool × σ) : Host ε σ :=
  ⟨fun s script => .ok ⟨(step s script).1, (step s script).2, []⟩⟩

/-- The host that accepts the scripts of a predicate. -/
def ofPredicate (p : String → Bool) : Host ε Unit :=
  ofMachine fun _ script => (p script, ())

end Host

end HostProbe
