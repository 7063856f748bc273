import HostProbe.SystemError

/-!
The operating system as an external host meets it: creating and filling a script file, starting
the program, and watching it until it ends. Instants are nanoseconds on a clock that never goes
back. The memory and the threads of the host itself are taken as given.
-/

namespace HostProbe.Command

inductive ExitStatus where
  | exited (code : Nat)
  | signalled (signal : Nat)
  deriving DecidableEq, Repr

def ExitStatus.success (s : ExitStatus) : Bool := decide (s = .exited 0)

/-- What is started: the program with its arguments, the script if it goes to standard input, and
the script file. -/
structure Launch where
  program : String
  arguments : List String
  stdin : Option String
  scriptPath : String
  script : String
  deriving DecidableEq, Repr

/-- A started program. Watched by polling, it is found running for a while, with a clock reading
after each such poll; the next poll then reports its end or fails. -/
structure Child where
  /-- The outcome of writing the script to standard input. -/
  feeding : Except SystemError Unit
  /-- The outcome of waiting without a timeout. -/
  wait : Except SystemError ExitStatus
  /-- The instant at which watching starts. -/
  started : Nat
  /-- The clock after each poll that found the program running. -/
  running : List Nat
  /-- The first other poll. -/
  ended : Except SystemError ExitStatus
  /-- What the program wrote to standard error. -/
  stderr : String

/-- How the operating system answers one run. -/
structure Machine where
  createFile : Except SystemError String
  writeFile : Except SystemError Unit
  flushFile : Except SystemError Unit
  spawn : Launch → Except SystemError Child

end HostProbe.Command
