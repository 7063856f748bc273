import HostProbe.Host.Basic

/-!
Dialogues with a host. A dialogue is a finite tree: it asks about a script, goes on depending on
the answer, writes log records, and ends with a result. Playing a dialogue against a host gives
the result together with every call made, in order.
-/

namespace HostProbe

inductive Dialogue (α : Type) where
  | done (result : α)
  | note (record : Log.Record) (rest : Dialogue α)
  | ask (script : String) (next : Bool → Dialogue α)

/-- What is left after a dialogue was played: its result (or the host's fault), the host's last
state, the answered calls and the log, both in order of time. -/
structure Run (ε σ α : Type) where
  result : Except ε α
  state : σ
  calls : List Call
  log : List Log.Record

/-- The result of a run against a host that has no faults. -/
def Run.value {σ α : Type} (r : Run Empty σ α) : α :=
  match r.result with
  | .ok a => a

namespace Dialogue

variable {ε σ α : Type}

def play (host : Host ε σ) (s : σ) : Dialogue α → Run ε σ α
  | done a => ⟨.ok a, s, [], []⟩
  | note r d =>
    let run := d.play host s
    { run with log := r :: run.log }
  | ask script next =>
    match host.execute s script with
    | .error e => ⟨.error e, s, [], []⟩
    | .ok reply =>
      let run := (next reply.accepted).play host reply.state
      { run with
        calls := ⟨script, reply.accepted⟩ :: run.calls
        log := reply.log ++ run.log }

end Dialogue

end HostProbe
