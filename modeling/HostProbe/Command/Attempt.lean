import HostProbe.Command.Machine
import HostProbe.Command.Spec
import HostProbe.Command.Template
import HostProbe.Host.Basic

/-!
Running a script through an external program. The script is accepted when the program ends with
status zero before the timeout; every refusal by the operating system is a rejection. The only
way not to answer is a deadline too late for the clock.
-/

namespace HostProbe.Command

def target : String := "vkprobe::execution::command"

/-- The deadline is no instant of the clock. -/
inductive Fault where
  | deadlineOverflow
  deriving DecidableEq, Repr

def Fault.message : Fault → String
  | .deadlineOverflow => "overflow when adding duration to instant"

def second : Nat := 1000000000

/-- The clock counts seconds in signed words of 64 bits. -/
def maxSeconds : Nat := 9223372036854775807

/-- The instant `timeout` seconds after `started`. -/
def deadline (started timeout : Nat) : Except Fault Nat :=
  if started / second + timeout ≤ maxSeconds then .ok (started + timeout * second)
  else .error .deadlineOverflow

/-- How watching a program ends. -/
inductive Ending where
  | exited (status : ExitStatus)
  | killed
  | failed (e : SystemError)
  deriving DecidableEq, Repr

def Ending.ofPoll : Except SystemError ExitStatus → Ending
  | .ok status => .exited status
  | .error e => .failed e

/-- Polls until the program ends; one that is found running at or past the deadline is killed. -/
def watch (deadline : Nat) (ended : Except SystemError ExitStatus) : List Nat → Ending
  | [] => .ofPoll ended
  | now :: later => if deadline ≤ now then .killed else watch deadline ended later

/-- Waits for a program, with a timeout in seconds or without. -/
def Child.ending (c : Child) : Option Nat → Except Fault Ending
  | none => .ok (.ofPoll c.wait)
  | some timeout =>
    match deadline c.started timeout with
    | .ok instant => .ok (watch instant c.ended c.running)
    | .error e => .error e

/-- The answer of one run, with the records written and whether the program was killed. -/
structure Attempt where
  answer : Except Fault Bool
  log : List Log.Record
  killed : Bool

def statusText : ExitStatus → String
  | .exited code => "Some(" ++ Text.Decimal.ofNat code ++ ")"
  | .signalled _ => "None"

def rejectionRecord (status : ExitStatus) (stderr : String) : Log.Record :=
  ⟨.trace, target, "host rejected script: status=" ++ statusText status ++ " stderr=" ++
    Text.trim stderr⟩

def timeoutRecord (timeout : Option Nat) : Log.Record :=
  ⟨.debug, target, "host timed out after " ++ Text.Decimal.ofNat (timeout.getD 0) ++
    "s; treating as rejection"⟩

/-- A failure counts as a rejection; its messages are joined from the outermost in. -/
def failure (messages : List String) : Attempt :=
  ⟨.ok false, [⟨.debug, target, "host error treated as rejection: " ++
    String.intercalate ": " messages⟩], false⟩

/-- The answer for a program that was started. -/
def Child.attempt (c : Child) (timeout : Option Nat) : Attempt :=
  match c.ending timeout with
  | .error e => ⟨.error e, [], false⟩
  | .ok .killed => ⟨.ok false, [timeoutRecord timeout], true⟩
  | .ok (.failed e) => failure [e.message]
  | .ok (.exited status) =>
    ⟨.ok status.success, if status.success then [] else [rejectionRecord status c.stderr], false⟩

/-- What is recorded about writing to standard input: only failures other than a closed pipe. -/
def feedingLog : Except SystemError Unit → List Log.Record
  | .ok _ => []
  | .error .brokenPipe => []
  | .error e => [⟨.trace, target, "writing script to host stdin: " ++ e.message⟩]

def Spec.launch (h : Spec) (code path : String) : Launch where
  program := h.program
  arguments := h.arguments.map fun t => Template.expand t code path
  stdin := if h.stdin then some code else none
  scriptPath := path
  script := code

/-- Runs one script. -/
def Spec.attempt (h : Spec) (m : Machine) (code : String) : Attempt :=
  match m.createFile with
  | .error e => failure ["creating script temp file", e.message]
  | .ok path =>
    match m.writeFile, m.flushFile with
    | .error e, _ => failure [e.message]
    | .ok _, .error e => failure [e.message]
    | .ok _, .ok _ =>
      match m.spawn (h.launch code path) with
      | .error e => failure ["failed to spawn host program " ++ h.program, e.message]
      | .ok child =>
        let a := child.attempt h.timeout
        { a with log := (if h.stdin then feedingLog child.feeding else []) ++ a.log }

/-- The host that a spec describes. Its state counts the runs; `machine` gives the operating
system's behaviour in each of them. -/
def Spec.host (h : Spec) (machine : Nat → Machine) : Host Fault Nat :=
  ⟨fun k code =>
    let a := h.attempt (machine k) code
    match a.answer with
    | .ok accepted => .ok ⟨accepted, k + 1, a.log⟩
    | .error e => .error e⟩

end HostProbe.Command
