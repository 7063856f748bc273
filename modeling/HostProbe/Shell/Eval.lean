import HostProbe.Shell.Builtin
import HostProbe.Shell.Reader
import HostProbe.Shell.Redirection

/-!
Running commands. Each function runs one layer and gets the runner for what is inside as an
argument; `runner` ties them together for a given depth of nesting. A loop that goes on beyond
`maxIterations` counts as one that never ends.
-/

namespace HostProbe.Shell

def maxIterations : Nat := 200000

/-- The depth to which commands, functions and substitutions may be nested. -/
def maxDepth : Nat := 1000

namespace Exec

/-- Ends the shell after a failed command if it is to end then. -/
def checkStatus : Exec Unit := do
  let s ← get
  if s.exitOnError && !s.guarded && s.status ≠ 0 then throw .exit

/-- Runs a condition, whose failure does not end the shell. -/
def condition (body : Exec Unit) : Exec Unit := do
  let s ← get
  set { s with guarded := true }
  let r ← attempt body
  modify fun t => { t with guarded := s.guarded }
  match r with
  | .ok _ => pure ()
  | .error flow => throw flow

/-- Runs commands one after another. -/
def sequence (k : Runner) : List Command → Exec Unit
  | [] => pure ()
  | c :: rest => do
    k.command c
    sequence k rest

/-- Sets variables from the left. -/
def assign (k : Runner) : List (Octets × Word) → Exec Unit
  | [] => pure ()
  | (name, word) :: rest => do
    let value ← text k word
    modify fun s => { s with bindings := Arithmetic.write s.bindings name value }
    assign k rest

/-- Sets exported variables for the time of one command. -/
def withAssignments (k : Runner) (assignments : List (Octets × Word)) (body : Exec Unit) :
    Exec Unit := do
  if assignments.isEmpty then body
  else
    let before ← get
    assign k assignments
    let names := assignments.map Prod.fst
    modify fun s => { s with exported := names ++ s.exported }
    let r ← attempt body
    modify fun s => { s with
      bindings := (before.bindings.filter fun v => names.contains v.1) ++
        s.bindings.filter fun v => !names.contains v.1
      exported := before.exported }
    match r with
    | .ok _ => pure ()
    | .error flow => throw flow

/-- Calls a function with its own parameters. -/
def callFunction (k : Runner) (body : Command) (args : List Octets) : Exec Unit := do
  let before ← get
  set { before with parameters := args, loops := 0 }
  let r ← attempt (k.command body)
  modify fun s => { s with parameters := before.parameters, loops := before.loops }
  match r with
  | .ok _ => pure ()
  | .error .return_ => pure ()
  | .error flow => throw flow

/-- Runs a builtin or a program. -/
def builtinOrExternal (k : Runner) (name : Octets) (args : List Octets) : Exec Unit :=
  match Builtin.find? k (String.ofList name) with
  | some builtin => builtin args
  | none => external k name args

/-- Whether a command of this name can be run without a path. -/
def isKnown (k : Runner) (s : State) (name : Octets) : Bool :=
  (s.functions.any fun f => f.1 = name) || name = "command".toList ||
    (Builtin.find? k (String.ofList name)).isSome ||
    (Program.find s.files (Arithmetic.read s.bindings "PATH".toList).toName name.toName).isOk

/-- Runs a command that is not a function, or tells whether there is one. -/
def commandBuiltin (k : Runner) : Builtin
  | ['-', 'v'] :: name :: _ => do
    let s ← get
    if isKnown k s name then set ((s.print (name ++ ['\n'])).withStatus 0) else setStatus 127
  | name :: args => builtinOrExternal k name args
  | [] => setStatus 0

/-- Runs a command by its name. -/
def dispatch (k : Runner) (name : Octets) (args : List Octets) : Exec Unit := do
  match (← get).functions.find? fun f => f.1 = name with
  | some (_, body) => callFunction k body args
  | none =>
    if name = "command".toList then commandBuiltin k args else builtinOrExternal k name args

/-- Runs a simple command: words are expanded first, then redirections and assignments made. -/
def simple (k : Runner) (assignments : List (Octets × Word)) (words : List Word)
    (redirects : List Redirect) : Exec Unit := do
  modify fun s => { s with substituted := none }
  match ← fields k words with
  | [] =>
    redirected k false redirects do
      assign k assignments
      modify fun s => s.withStatus (s.substituted.getD 0)
  | name :: args =>
    let special := Builtin.special.contains (String.ofList name)
    if name = "exec".toList && args.isEmpty then
      match ← redirectAll k redirects with
      | .ok _ => setStatus 0
      | .error message => fatal message
    else if special then
      redirected k true redirects do
        assign k assignments
        dispatch k name args
    else
      redirected k false redirects (withAssignments k assignments (dispatch k name args))
  checkStatus

/-- Runs the stages of a pipeline, each in a copy of the process and fed with what the one before
it wrote. -/
def stages (k : Runner) : List Command → Exec Unit
  | [] => pure ()
  | [c] => inCopy k (k.command c)
  | c :: rest => do
    let text ← capture k (k.command c)
    let before ← get
    set { before with input := some text }
    let r ← attempt (stages k rest)
    modify fun s => { s with input := before.input }
    match r with
    | .ok _ => pure ()
    | .error flow => throw flow

def pipeline (k : Runner) (negated : Bool) (commands : List Command) : Exec Unit := do
  let body := match commands with
    | [c] => k.command c
    | _ => stages k commands
  if negated then
    condition body
    modify fun s => s.withStatus (if s.status = 0 then 1 else 0)
  else
    body
    checkStatus

/-- Runs the first clause whose condition holds. -/
def branch (k : Runner) (otherwise : Command) : List (Command × Command) → Exec Unit
  | [] => do
    setStatus 0
    k.command otherwise
  | (test, body) :: rest => do
    condition (k.command test)
    if (← get).status = 0 then k.command body else branch k otherwise rest

/-- Repeats a step while it says so. The step gets and gives the status of the latest round. -/
def iterate (step : Nat → State → Except Flow (Option Nat) × State) :
    Nat → Nat → State → Except Flow Unit × State
  | 0, _, s => (.error .endless, s)
  | n + 1, last, s =>
    match step last s with
    | (.ok (some last), s) => iterate step n last s
    | (.ok none, s) => (.ok (), s)
    | (.error flow, s) => (.error flow, s)

/-- Runs the body of a loop once; tells whether the loop goes on. -/
def round (body : Exec Unit) : Exec Bool := do
  let loops := (← get).loops
  modify fun s => { s with loops := loops + 1 }
  let r ← attempt body
  modify fun s => { s with loops := loops }
  match r with
  | .ok _ => pure true
  | .error (.leave n) => if n ≤ 1 then pure false else throw (.leave (n - 1))
  | .error (.again n) => if n ≤ 1 then pure true else throw (.again (n - 1))
  | .error flow => throw flow

/-- Repeats a body while a condition holds, or until it does. -/
def loop (k : Runner) (whileTrue : Bool) (test body : Command) : Exec Unit :=
  let step (last : Nat) : Exec (Option Nat) := do
    if !(← round (condition (k.command test))) then pure none
    else if ((← get).status = 0) == whileTrue then
      let goesOn ← round (k.command body)
      let status := (← get).status
      pure (if goesOn then some status else none)
    else
      setStatus last
      pure none
  ExceptT.mk fun s => iterate (fun last s => (step last).run s) maxIterations 0 s

/-- Runs a body once for each text. -/
def each (k : Runner) (name : Octets) (body : Command) : List Octets → Exec Unit
  | [] => pure ()
  | text :: rest => do
    modify fun s => { s with bindings := Arithmetic.write s.bindings name text }
    if ← round (k.command body) then each k name body rest

/-- Whether one of several patterns matches. -/
def matchesAny (k : Runner) (text : Octets) : List Word → Exec Bool
  | [] => pure false
  | word :: words => do
    if (Cell.pattern (← k.word word)).isMatch text then pure true else matchesAny k text words

/-- Runs the first arm with a pattern that matches. -/
def select (k : Runner) (text : Octets) : List (List Word × Command) → Exec Unit
  | [] => setStatus 0
  | (patterns, body) :: rest => do
    if ← matchesAny k text patterns then
      setStatus 0
      k.command body
    else select k text rest

/-- A command in the background: nothing waits for it. -/
def background (k : Runner) (c : Command) : Exec Unit := do
  let before ← get
  set { before with input := some [] }
  let r ← attempt (inCopy k (k.command c))
  modify fun s => { s with input := before.input, clock := before.clock, status := 0 }
  match r with
  | .error (.killed n) => throw (.killed n)
  | _ => pure ()

/-- Runs one command. -/
def command (k : Runner) : Command → Exec Unit
  | .simple assignments words redirects => simple k assignments words redirects
  | .pipeline negated commands => pipeline k negated commands
  | .both a b => do
    condition (k.command a)
    if (← get).status = 0 then k.command b
  | .either a b => do
    condition (k.command a)
    if (← get).status ≠ 0 then k.command b
  | .background c => background k c
  | .sequence commands => sequence k commands
  | .branch clauses otherwise => branch k otherwise clauses
  | .loop whileTrue test body => loop k whileTrue test body
  | .each name words body => do
    let texts ← match words with
      | some words => fields k words
      | none => do pure (← get).parameters
    setStatus 0
    each k name body texts
  | .select word arms => do
    let value ← text k word
    select k value arms
  | .subshell body => do
    inCopy k (k.command body)
    checkStatus
  | .redirected c redirects => redirected k false redirects (k.command c)
  | .define name body => modify fun s =>
      { s with functions := (name, body) :: s.functions.filter (fun f => f.1 ≠ name), status := 0 }

/-- Runs a script line by line; a line that cannot be read ends the shell. -/
def script (k : Runner) : Nat → Octets → Exec Unit
  | 0, _ => pure ()
  | n + 1, l => do
    match nextLine l with
    | .finished => pure ()
    | .wrong => fatal "Syntax error".toList
    | .line commands rest =>
      sequence k commands
      modify fun s => { s with line := s.line + (l.take (l.length - rest.length)).count '\n' }
      script k n rest

end Exec

/-- The runner for commands nested no deeper than `depth`; deeper ones count as endless. -/
def runner : Nat → Runner
  | 0 => ⟨fun _ => throw .endless, fun _ => throw .endless, fun _ => throw .endless⟩
  | depth + 1 =>
    let k := runner depth
    ⟨Exec.command k, Exec.parts k, fun l => Exec.script k (l.length + 1) l⟩

end HostProbe.Shell
