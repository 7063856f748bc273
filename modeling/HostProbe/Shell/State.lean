import HostProbe.Files
import HostProbe.Shell.Arithmetic
import HostProbe.Shell.Syntax
import HostProbe.Text.Decimal

/-!
The state of a simulated process: variables and parameters, descriptors with what was read and
written through them, the clock, and traps.
-/

namespace HostProbe.Shell

/-- Where written text goes. -/
inductive Sink where
  | stdout
  | stderr
  | null
  | closed
  | file (path : Octets)
  deriving DecidableEq, Repr

/-- What a command does to the flow of control when the next command does not follow: the shell
ends, a signal kills it, loops are left or continued, a function returns, or nothing ever ends. -/
inductive Flow where
  | exit
  | killed (signal : Nat)
  | leave (loops : Nat)
  | again (loops : Nat)
  | return_
  | endless
  deriving DecidableEq, Repr

structure State where
  bindings : Arithmetic.Variables
  /-- The name under which the shell complains and that `$0` gives. -/
  zero : Octets
  parameters : List Octets
  status : Nat
  /-- The status of the latest command substitution of the current command. -/
  substituted : Option Nat
  /-- What is left to read; nothing when the descriptor is closed. -/
  input : Option Octets
  out : Sink
  err : Sink
  /-- Written text, latest piece first. -/
  outData : List Octets
  errData : List Octets
  files : Files
  clock : Nat
  processId : Nat
  /-- Actions of trapped signals; an empty action ignores the signal. -/
  traps : List (Nat × Octets)
  functions : List (Octets × Command)
  /-- Names of the variables that started programs get. -/
  exported : List Octets
  /-- The number of loops around the current command. -/
  loops : Nat
  exitOnError : Bool
  /-- Whether the value of an unset parameter is an error. -/
  strict : Bool
  /-- Inside a condition a failing command does not end the shell. -/
  guarded : Bool
  line : Nat

namespace State

/-- Replaces the octets of a file, or creates it. -/
def store (s : State) (path : Octets) (text : Octets) : State :=
  let name := path.toName
  let place := match s.files.locate name with
    | .ok (place, _) => place
    | .error _ => (if name.toList.head? = some '/' then [] else s.files.workingDirectory) ++
        (Text.pieces '/' name).filter (· ≠ "")
  let octets := text.map fun c => UInt8.ofNat c.toNat
  let others := s.files.entries.filter fun e => e.1 ≠ place
  { s with files := { s.files with entries := (place, .file octets) :: others } }

/-- The octets of a file. -/
def load (s : State) (path : Octets) : Except SystemError Octets :=
  match s.files.readOctets path.toName with
  | .ok octets => .ok (octets.map fun b => Char.ofNat b.toNat)
  | .error e => .error e

/-- Writes a text to a sink. -/
def write (s : State) (sink : Sink) (text : Octets) : State :=
  match sink with
  | .stdout => { s with outData := text :: s.outData }
  | .stderr => { s with errData := text :: s.errData }
  | .null => s
  | .closed => s
  | .file path => s.store path ((s.load path).toOption.getD [] ++ text)

def print (s : State) (text : Octets) : State := s.write s.out text

def printError (s : State) (text : Octets) : State := s.write s.err text

/-- A complaint of the shell itself. -/
def complain (s : State) (message : Octets) : State :=
  s.printError (s.zero ++ ": ".toList ++ Nat.toDigits 10 s.line ++ ": ".toList ++ message ++ ['\n'])

def withStatus (s : State) (status : Nat) : State := { s with status := status }

/-- All text of the latest-first pieces. -/
def joined (pieces : List Octets) : Octets := pieces.reverse.flatten

/-- The contents of a file or device. -/
def readPath (s : State) (path : Octets) : Except SystemError Octets :=
  if path = "/dev/stdin".toList then .ok (s.input.getD []) else s.load path

end State

/-- The numbers of signals by name. -/
def signalNames : List (String × Nat) :=
  [("EXIT", 0), ("HUP", 1), ("INT", 2), ("QUIT", 3), ("ILL", 4), ("TRAP", 5), ("ABRT", 6),
    ("BUS", 7), ("FPE", 8), ("KILL", 9), ("USR1", 10), ("SEGV", 11), ("USR2", 12), ("PIPE", 13),
    ("ALRM", 14), ("TERM", 15), ("STKFLT", 16), ("CHLD", 17), ("CONT", 18), ("STOP", 19),
    ("TSTP", 20), ("TTIN", 21), ("TTOU", 22), ("URG", 23), ("XCPU", 24), ("XFSZ", 25),
    ("VTALRM", 26), ("PROF", 27), ("WINCH", 28), ("IO", 29), ("PWR", 30), ("SYS", 31)]

/-- A signal by number or by name, with or without its first three letters. -/
def signal? (l : Octets) : Option Nat :=
  match Text.Decimal.digits? l with
  | some n => if n ≤ 64 then some n else none
  | none =>
    let name := (String.ofList l).toUpper
    let name := if "SIG".toList.isPrefixOf name.toList then (name.drop 3).toString else name
    (signalNames.find? fun p => p.1 = name).map Prod.snd

/-- What a signal does when it is not trapped. -/
inductive SignalEffect where
  | nothing
  | stop
  | terminate
  deriving DecidableEq, Repr

def signalEffect (n : Nat) : SignalEffect :=
  if n = 0 || n = 17 || n = 18 || n = 23 || n = 28 then .nothing
  else if n = 19 || n = 20 || n = 21 || n = 22 then .stop
  else .terminate

end HostProbe.Shell
