import HostProbe.Shell.State

/-!
Commands as functions on the state of a process, and the ways to run one inside another: in a
copy of the process, with its output captured, and with its descriptors moved.
-/

namespace HostProbe.Shell

/-- A computation on the state of a process, which may change the flow of control. -/
abbrev Exec := ExceptT Flow (StateM State)

/-- How an octet got into a word. -/
inductive Origin where
  | literal
  | quoted
  | expanded
  deriving DecidableEq, Repr

/-- An element of an expanded word. -/
inductive Cell where
  | octet (origin : Origin) (c : Char)
  /-- Quotes: the field exists even if it stays empty. -/
  | mark
  /-- A field ends here. -/
  | gap
  /-- A quoted list of no parameters, which makes no field. -/
  | nothing
  deriving DecidableEq, Repr

/-- The parts of the shell that contain each other. -/
structure Runner where
  command : Command → Exec Unit
  word : Word → Exec (List Cell)
  script : Octets → Exec Unit

namespace Exec

def setStatus (n : Nat) : Exec Unit := modify fun s => s.withStatus n

def complain (message : Octets) : Exec Unit := modify fun s => s.complain message

/-- An error that ends the shell. -/
def fatal {α : Type} (message : Octets) : Exec α := do
  complain message
  setStatus 2
  throw .exit

/-- Runs a computation and keeps how it ended. -/
def attempt (body : Exec Unit) : Exec (Except Flow Unit) := ExceptT.mk fun s =>
  let (r, t) := body.run s
  (.ok r, t)

/-- The state of a process after another one, started as a copy of it, has ended: descriptors,
files and the clock are shared, all else is its own. -/
def rejoin (s t : State) : State :=
  { s with
    input := t.input
    outData := t.outData
    errData := t.errData
    files := { t.files with workingDirectory := s.files.workingDirectory }
    clock := t.clock
    status := t.status }

/-- Runs the action for the end of the process, if there is one; the status stays as it was unless
the action itself ends the process. -/
def finish (k : Runner) (body : Exec Unit) : Exec Unit := do
  match ← attempt body with
  | .error (.killed n) => throw (.killed n)
  | .error .endless => throw .endless
  | _ =>
    let s ← get
    match s.traps.find? fun t => t.1 = 0 with
    | some (_, action) =>
      set { s with traps := s.traps.filter fun t => t.1 ≠ 0 }
      k.script action
      setStatus s.status
    | none => pure ()

/-- Runs a computation in a copy of the process. A signal to the process reaches the copy too. -/
def inCopy (k : Runner) (body : Exec Unit) : Exec Unit := ExceptT.mk fun s =>
  let start := { s with traps := s.traps.filter fun t => t.2.isEmpty, loops := 0 }
  let (r, t) := (finish k body).run start
  match r with
  | .error (.killed n) => (.error (.killed n), rejoin s t)
  | .error .endless => (.error .endless, rejoin s t)
  | _ => (.ok (), rejoin s t)

/-- Runs a computation in a copy of the process and gives what it wrote. -/
def capture (k : Runner) (body : Exec Unit) : Exec Octets := do
  let s ← get
  set { s with out := .stdout, outData := [] }
  let r ← attempt (inCopy k body)
  let t ← get
  set { t with out := s.out, outData := s.outData }
  match r with
  | .ok _ => pure (State.joined t.outData)
  | .error flow => throw flow

/-- The descriptors of a process. -/
structure Descriptors where
  input : Option Octets
  out : Sink
  err : Sink

def descriptors (s : State) : Descriptors := ⟨s.input, s.out, s.err⟩

/-- Runs a computation whose descriptors were moved, and moves them back. Input that was not moved
stays consumed. -/
def withDescriptors (before : Descriptors) (inputMoved : Bool) (body : Exec Unit) : Exec Unit := do
  let r ← attempt body
  modify fun s =>
    { s with
      input := if inputMoved then before.input else s.input
      out := before.out
      err := before.err }
  match r with
  | .ok _ => pure ()
  | .error flow => throw flow

end Exec

end HostProbe.Shell
