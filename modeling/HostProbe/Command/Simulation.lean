import HostProbe.Command.Machine
import HostProbe.Shell.Eval

/-!
A simulated machine on which external hosts run: a shell and the usual small utilities, a clock
that only sleeping moves, and the limits on arguments. Every run starts from the same files.
-/

namespace HostProbe.Command

open Shell

/-- A simulated machine before a run. -/
structure Simulation where
  files : Files
  environment : List (String × String)

/-- Where the script of a run is put. -/
def scriptPath : String := "/tmp/vkprobe-Ab3xYz.js"

/-- One argument may have fewer octets than this. -/
def maxArgument : Nat := 131072

/-- The room for all arguments and variables, with a pointer for each. -/
def maxArguments : Nat := 2097152

/-- The instant at which every run starts. -/
def startInstant : Nat := 1000000000000

def pollInterval : Nat := 10000000

/-- Starting and ending a program takes some time. -/
def overhead : Nat := 1000000

def maxPolls : Nat := 10000

def hasZero (s : String) : Bool := s.toList.contains '\x00'

/-- Whether the arguments and the environment of a program fit. -/
def argumentsFit (texts : List String) : Bool :=
  texts.all (fun t => t.utf8ByteSize < maxArgument) &&
    texts.foldl (fun n t => n + t.utf8ByteSize + 9) 0 ≤ maxArguments

/-- Polls that find a program running that takes so long, or forever. -/
def polls (duration : Option Nat) : List Nat :=
  let n := match duration with
    | some d => min ((d + pollInterval - 1) / pollInterval) maxPolls
    | none => maxPolls
  (List.range n).map fun i => startInstant + i * pollInterval

/-- The variables of a started program, which always has a path to search for programs. -/
def Simulation.bindings (m : Simulation) : List (String × String) :=
  m.environment ++
    if m.environment.any fun v => v.1 = "PATH" then [] else [("PATH", Program.standardSearchPath)]

def Simulation.searchPath (m : Simulation) : String :=
  ((m.bindings.find? fun v => v.1 = "PATH").map Prod.snd).getD Program.standardSearchPath

/-- The script file of a run. -/
def Launch.scriptEntry (l : Launch) : List String × Content :=
  ((Text.pieces '/' l.scriptPath).filter (· ≠ ""), .file (Text.Utf8.encode l.script))

/-- The state of a process that runs a program. -/
def Simulation.initial (m : Simulation) (l : Launch) : State where
  bindings := m.bindings.map fun (name, value) => (Octets.ofText name, Octets.ofText value)
  zero := Octets.ofText l.program
  parameters := []
  status := 0
  substituted := none
  input := some (Octets.ofText (l.stdin.getD ""))
  out := .null
  err := .stderr
  outData := []
  errData := []
  files :=
    { m.files with entries := l.scriptEntry :: m.files.entries ++ Program.entries }
  clock := 0
  processId := 4242
  traps := []
  functions := []
  exported := m.bindings.map fun (name, _) => Octets.ofText name
  loops := 0
  exitOnError := false
  strict := false
  guarded := false
  line := 0

/-- Runs a program to its end and tells how a watcher sees it. -/
def Simulation.child (m : Simulation) (program : String) (l : Launch) : Child :=
  let body := Exec.program (runner maxDepth) program (Octets.ofText l.program)
    (l.arguments.map Octets.ofText)
  let (r, s) := body.run (m.initial l)
  let status := match r with
    | .error (.killed n) => ExitStatus.signalled n
    | _ => ExitStatus.exited s.status
  let duration := match r with
    | .error .endless => none
    | _ => some (s.clock + overhead)
  { feeding := .ok ()
    wait := .ok status
    started := startInstant
    running := polls duration
    ended := .ok status
    stderr := (Octets.toText? (State.joined s.errData)).getD "" }

/-- Starts a program, unless it or its arguments are refused. -/
def Simulation.spawn (m : Simulation) (l : Launch) : Except SystemError Child :=
  if hasZero l.program || l.arguments.any hasZero then .error .nulInArgument
  else
    let files := (m.initial l).files
    match Program.find files m.searchPath l.program with
    | .error e => .error e
    | .ok program =>
      if argumentsFit (l.program :: l.arguments ++ m.bindings.map fun v => v.1 ++ "=" ++ v.2) then
        .ok (m.child program l)
      else .error .argumentListTooLong

/-- The machine as an external host meets it. -/
def Simulation.machine (m : Simulation) : Machine where
  createFile := .ok scriptPath
  writeFile := .ok ()
  flushFile := .ok ()
  spawn := m.spawn

end HostProbe.Command
