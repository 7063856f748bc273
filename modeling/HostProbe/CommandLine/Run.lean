import HostProbe.Capacity.Prober
import HostProbe.Command.Attempt
import HostProbe.CommandLine.Arguments
import HostProbe.Render.Document
import HostProbe.Render.Markdown
import HostProbe.ScriptSource
import HostProbe.Settings.Basic

/-!
A run of the program, from its arguments to its exit status. Everything outside is in `World`;
everything the run did is in `Exit`. A run that fails prints nothing and asks no host.
-/

namespace HostProbe.CommandLine

structure World where
  files : Files
  environment : Environment
  /-- What is piped into standard input; `none` for a terminal, which is not read. -/
  input : Option (List UInt8)
  /-- Whether standard output is a terminal, and so shows colours. -/
  colours : Bool
  /-- The operating system's behaviour in each run of an external host. -/
  machine : Nat → Command.Machine

/-- What goes to standard output. The layout of rendered markdown is the terminal's. -/
inductive Output where
  | nothing
  | text (s : String)
  | markdown (source : String)
  | help
  deriving DecidableEq, Repr

inductive Failure where
  | scriptWithRuntime
  | script (e : ScriptSource.Error)
  | unknownHost (name : String)
  | limitRequired
  | specRequired
  | spec (path : String) (e : Command.Spec.Error)
  deriving DecidableEq, Repr

/-- The messages of a failure, the outermost first. -/
def Failure.chain : Failure → List String
  | .scriptWithRuntime => ["--script only applies to --capacity"]
  | .script e => [e.message]
  | .unknownHost name => ["unknown VKPROBE_HOST value: " ++ name]
  | .limitRequired => ["--limit or VKPROBE_HOST_LIMIT is required for the limit host"]
  | .specRequired => ["--host-spec or VKPROBE_HOST_SPEC is required for the command host"]
  | .spec path e => ("loading command host from " ++ path) :: e.chain

/-- How a run ended: normally, with a failure, with a host that could not answer, or without
starting because the command line was wrong. -/
inductive Ending where
  | done
  | failed (e : Failure)
  | broken (e : Command.Fault)
  | misused
  deriving DecidableEq, Repr

structure Exit where
  status : Nat
  stdout : Output
  filter : String
  log : List Log.Record
  calls : List Call
  ending : Ending

/-- A multi-line message, its further lines indented. -/
def indentBy (margin s : String) : String :=
  String.intercalate ("\n" ++ margin) (Text.pieces '\n' s)

/-- The causes of a failure: one alone is only indented, several are numbered. -/
def causeLines : List String → List String
  | [cause] => ["    " ++ indentBy "    " cause]
  | causes => causes.zipIdx.map fun (cause, i) =>
      Render.padLeft 5 (Text.Decimal.ofNat i) ++ ": " ++ indentBy "       " cause

/-- The report of a failure. -/
def failureLines : List String → List String
  | [] => []
  | [message] => ["Error: " ++ message]
  | message :: causes => ["Error: " ++ message, "", "Caused by:"] ++ causeLines causes

def Ending.lines : Ending → List String
  | .done => []
  | .misused => []
  | .failed e => failureLines e.chain
  | .broken e => ["thread 'main' panicked:", e.message]

/-- What goes to standard error: the admitted log records, then the failure. -/
def Exit.stderr (e : Exit) : String :=
  Render.unlines ((Log.readFilter e.filter).lines e.log ++ e.ending.lines)

def target : String := "vkprobe"

def note (message : String) : Log.Record := ⟨.info, target, message⟩

/-- Flags for verbosity stand above the configured filter. -/
def logFilter (a : Arguments) (s : Settings) : String :=
  match a.verbose with
  | 0 => s.logFilter
  | 1 => "info"
  | 2 => "debug"
  | _ => "trace"

inductive Format where
  | json
  | markdown
  | text
  deriving DecidableEq, Repr

/-- JSON wins over markdown; markdown is chosen by flag, else by the settings. -/
def format (a : Arguments) (s : Settings) : Format :=
  if a.json then .json
  else if a.noMarkdown then .text
  else if a.markdown || s.markdown then .markdown
  else .text

def printCapacity (w : World) (r : Capacity.Report) : Format → Output
  | .json => .text (Render.capacityJson r ++ "\n")
  | .markdown => .markdown (Render.capacityMarkdown r)
  | .text => .text (Render.capacityText w.colours r)

def printRows (w : World) (rows : List Row) : Format → Output
  | .json => .text (Render.rowsJson rows ++ "\n")
  | .markdown => .markdown (Render.rowsMarkdown rows)
  | .text => .text (Render.rowsText w.colours rows)

/-- The body to probe with: the named script, or what is piped in unless that is blank, or the
standard body. -/
def chooseProber (w : World) (a : Arguments) : Except Failure Capacity.Prober :=
  match a.script with
  | some path =>
    match ScriptSource.read w.files (w.input.getD []) path with
    | .ok body => .ok ⟨body⟩
    | .error e => .error (.script e)
  | none =>
    match w.input with
    | none => .ok .standard
    | some input =>
      match ScriptSource.ofInput input with
      | .ok body => .ok (if Text.allBlank body then .standard else ⟨body⟩)
      | .error e => .error (.script e)

/-- A host chosen for a run. -/
inductive Selected where
  | limit (n : Nat)
  | command (h : Command.Spec)
  deriving DecidableEq, Repr

def chooseKind (a : Arguments) (s : Settings) : Except Failure HostKind :=
  match a.host with
  | some kind => .ok kind
  | none =>
    let name := Text.asciiLower s.hostKind
    match HostKind.ofName name with
    | some kind => .ok kind
    | none => .error (.unknownHost name)

/-- Flags stand above the settings. -/
def chooseHost (w : World) (a : Arguments) (s : Settings) : Except Failure Selected :=
  match chooseKind a s with
  | .error e => .error e
  | .ok .limit =>
    match a.limit <|> s.hostLimit? with
    | some n => .ok (.limit n)
    | none => .error .limitRequired
  | .ok .command =>
    match a.hostSpec <|> s.hostSpecPath? with
    | none => .error .specRequired
    | some path =>
      match Command.Spec.load w.files path with
      | .ok h => .ok (.command h)
      | .error e => .error (.spec path e)

def Selected.record : Selected → Log.Record
  | .limit n => note ("using simulated host with limit " ++ Text.Decimal.ofNat n)
  | .command h => note ("using command host " ++ h.program)

/-- The state of a selected host counts its calls. -/
def Selected.host (machine : Nat → Command.Machine) : Selected → Host Command.Fault Nat
  | .limit n => .limit n
  | .command h => h.host machine

/-- Reports when all seven scenarios agree with their expected outcomes. -/
def runScenarios (w : World) (a : Arguments) (s : Settings) : Exit :=
  let rows := Row.compare Scenario.outcomes
  { status := if Row.allMatched rows then 0 else 1
    stdout := printRows w rows (format a s)
    filter := logFilter a s
    log := []
    calls := []
    ending := .done }

def failedExit (a : Arguments) (s : Settings) (e : Failure) : Exit :=
  ⟨1, .nothing, logFilter a s, [], [], .failed e⟩

/-- Probes a host and prints the report. -/
def probeHost (w : World) (a : Arguments) (s : Settings) (p : Capacity.Prober)
    (selected : Selected) : Exit :=
  let run := p.probe (selected.host w.machine) 0
  let log := selected.record :: run.log
  match run.result with
  | .ok r =>
    { status := if r.isUsable then 0 else 1
      stdout := printCapacity w r (format a s)
      filter := logFilter a s
      log := log
      calls := run.calls
      ending := .done }
  | .error e => ⟨101, .nothing, logFilter a s, log, run.calls, .broken e⟩

def runCapacity (w : World) (a : Arguments) (s : Settings) : Exit :=
  match chooseProber w a with
  | .error e => failedExit a s e
  | .ok p =>
    match chooseHost w a s with
    | .error e => failedExit a s e
    | .ok selected => probeHost w a s p selected

/-- Runs with accepted arguments and loaded settings. -/
def runWith (w : World) (a : Arguments) (s : Settings) : Exit :=
  let exit :=
    if a.runtime then
      if a.script.isSome then failedExit a s .scriptWithRuntime else runScenarios w a s
    else runCapacity w a s
  { exit with log := note ("config: " ++ s.path) :: exit.log }

/-- The line that names the program and its version. -/
def versionLine : String := "vkprobe 0.1.0\n"

def silentExit (status : Nat) (stdout : Output) (ending : Ending) : Exit :=
  ⟨status, stdout, "off", [], [], ending⟩

/-- The whole program. -/
def run (w : World) (args : List String) : Exit :=
  match Request.ofArgs args with
  | .help => silentExit 0 .help .done
  | .version => silentExit 0 (.text versionLine) .done
  | .misuse => silentExit 2 .nothing .misused
  | .run a => runWith w a (Settings.load w.files w.environment)

end HostProbe.CommandLine
