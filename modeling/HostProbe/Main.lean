import HostProbe.Command.Simulation
import HostProbe.CommandLine.Run

/-!
The program. It takes a snapshot of what a run can read (variables, the rc file, the script, the
host spec and standard input), lets `CommandLine.run` decide, and prints. External hosts run on
the simulated machine.
-/

namespace HostProbe.CommandLine

/-- The variables that a run looks at or hands on. -/
def variableNames : List String :=
  Settings.environmentKeys ++ ["HOME", "XDG_CONFIG_HOME", "PATH"]

def readEnvironment : IO Environment := do
  let found ← variableNames.filterMapM fun name => do
    return (← IO.getEnv name).map fun value => (name, value)
  return ⟨found, none⟩

/-- Adds a file to a snapshot; one that cannot be read is left out. -/
def addFile (files : Files) (path : String) : IO Files := do
  try
    let octets ← IO.FS.readBinFile path
    return files.insert path (.file octets.toList)
  catch
    | .inappropriateType .. => return files.insert path .directory
    | _ => return files

/-- Reads a stream to its end. -/
partial def readAll (input : IO.FS.Stream) (done : List (List UInt8)) : IO (List UInt8) := do
  let octets ← input.read 65536
  if octets.isEmpty then return done.reverse.flatten
  readAll input (octets.toList :: done)

/-- The files that a run with these arguments can read. -/
def readFiles (e : Environment) (a : Arguments) : IO Files := do
  let here ← IO.currentDir
  let files : Files := ⟨[], (Text.pieces '/' here.toString).filter (· ≠ "")⟩
  let files ← addFile files (Settings.defaultPath e)
  let spec := a.hostSpec <|> (Settings.load files e).hostSpecPath?
  (a.script.toList ++ spec.toList).foldlM addFile files

/-- What is piped in, if a run with these arguments reads it. -/
def readInput (a : Arguments) : IO (Option (List UInt8)) := do
  let input ← IO.getStdin
  if a.runtime || (a.script.any fun path => path ≠ "-") then return some []
  if ← input.isTty then return none
  return some (← readAll input [])

/-- Everything outside a run. -/
def readWorld (args : List String) : IO World := do
  let e ← readEnvironment
  let colours ← (← IO.getStdout).isTty
  let (files, input) ← match Request.ofArgs args with
    | .run a => do pure (← readFiles e a, ← readInput a)
    | _ => pure (⟨[], []⟩, some [])
  let simulation : Command.Simulation := ⟨files, e.bindings⟩
  return ⟨files, e, input, colours, fun _ => simulation.machine⟩

def usage : String :=
  "Usage: vkprobe [--capacity | --runtime] [--script FILE] [--host limit|command] [--limit N]\n" ++
  "               [--host-spec FILE] [--json] [--md | --no-md] [-v]...\n"

def printOutput : Output → IO Unit
  | .nothing => pure ()
  | .text s => IO.print s
  | .markdown source => IO.print source
  | .help => IO.print usage

end HostProbe.CommandLine

open HostProbe in
def main (args : List String) : IO UInt32 := do
  let world ← CommandLine.readWorld args
  let exit := CommandLine.run world args
  CommandLine.printOutput exit.stdout
  IO.eprint exit.stderr
  if exit.ending = .misused then IO.eprint CommandLine.usage
  return UInt32.ofNat exit.status
