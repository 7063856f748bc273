import HostProbe.Shell.Program

/-!
Commands that are part of the shell. The special ones end the shell when they are misused.
-/

namespace HostProbe.Shell

abbrev Builtin := List Octets → Exec Unit

namespace Builtin

open Exec

/-- The largest number that is accepted as a status or count. -/
def maxNumber : Nat := 2147483647

def number? (l : Octets) : Option Nat :=
  match Test.number l with
  | .ok n => if 0 ≤ n ∧ n ≤ maxNumber then some n.toNat else none
  | .error _ => none

/-- Goes on with a number, which must be neither negative nor too large. -/
def withNumber (name : String) (arg : Octets) (go : Nat → Exec Unit) : Exec Unit :=
  match number? arg with
  | some n => go n
  | none => fatal (name.toList ++ ": Illegal number: ".toList ++ arg)

/-- Ends the shell or a function, with the current status or a given one. -/
def ending (name : String) (flow : Flow) : Builtin
  | [] => throw flow
  | arg :: _ => withNumber name arg fun n => do
    setStatus (n % 256)
    throw flow

/-- Leaves or continues loops; outside of them nothing happens. -/
def jump (name : String) (flow : Nat → Flow) (args : List Octets) : Exec Unit :=
  withNumber name (args.headD ['1']) fun n => do
    let s ← get
    setStatus 0
    if n = 0 then fatal (name.toList ++ ": Illegal number: 0".toList)
    else if s.loops = 0 then pure ()
    else throw (flow (min n s.loops))

def shift : Builtin := fun args =>
  withNumber "shift" (args.headD ['1']) fun n => do
    let s ← get
    if s.parameters.length < n then fatal "shift: can't shift that many".toList
    else set { s with parameters := s.parameters.drop n, status := 0 }

/-- Splits `name=value`. -/
def assignment? (l : Octets) : Octets × Option Octets :=
  match l.span (· ≠ '=') with
  | (name, _ :: value) => (name, some value)
  | (name, []) => (name, none)

/-- Declares variables: with a value they are also set, and perhaps exported. -/
def declare (name : String) (exported : Bool) : Builtin
  | [] => setStatus 0
  | arg :: rest => do
    let (target, value) := assignment? arg
    if arg.head? = some '-' then declare name exported rest
    else if !isName target then fatal (name.toList ++ ": ".toList ++ target ++
      ": bad variable name".toList)
    else
      modify fun s => { s with
        bindings := match value with
          | some v => Arithmetic.write s.bindings target v
          | none => s.bindings
        exported := if exported then target :: s.exported else s.exported }
      declare name exported rest

def unset : Builtin := fun args =>
  let functions := args.contains "-f".toList
  let names := args.filter fun a => a.head? ≠ some '-'
  modify fun s =>
    if functions then
      { s with functions := s.functions.filter fun f => !names.contains f.1, status := 0 }
    else { s with bindings := s.bindings.filter fun v => !names.contains v.1, status := 0 }

def switch (on : Bool) (s : State) : Char → State
  | 'e' => { s with exitOnError := on }
  | 'u' => { s with strict := on }
  | _ => s

/-- The letters of options with a name. -/
def optionLetter (name : Octets) : List Char :=
  match String.ofList name with
  | "errexit" => ['e']
  | "nounset" => ['u']
  | _ => []

/-- Switches options and replaces the parameters. -/
def options : Builtin
  | [] => setStatus 0
  | ['-', '-'] :: l => modify fun s => { s with parameters := l, status := 0 }
  | ['-', 'o'] :: name :: l => do
    modify fun s => (optionLetter name).foldl (switch true) s
    options l
  | ['+', 'o'] :: name :: l => do
    modify fun s => (optionLetter name).foldl (switch false) s
    options l
  | ('-' :: letters) :: l => do
    modify fun s => letters.foldl (switch true) s
    options l
  | ('+' :: letters) :: l => do
    modify fun s => letters.foldl (switch false) s
    options l
  | l => modify fun s => { s with parameters := l, status := 0 }

/-- Sets the action of one signal. -/
def trapSignal (action : Option Octets) (signal : Octets) : Exec Unit :=
  match signal? signal with
  | some n => modify fun s =>
      let others := s.traps.filter fun t => t.1 ≠ n
      { s with traps := (action.map fun a => (n, a)).toList ++ others }
  | none => fatal ("trap: ".toList ++ signal ++ ": bad trap".toList)

/-- Sets actions of signals; a dash or a leading number resets them. -/
def trap : Builtin := fun args => do
  match args with
  | [] => pure ()
  | [signal] => trapSignal none signal
  | action :: signals =>
    if action = ['-'] then signals.forM (trapSignal none)
    else if (Text.Decimal.digits? action).isSome then args.forM (trapSignal none)
    else signals.forM (trapSignal (some action))
  setStatus 0

/-- A signal reaches this process: it is ignored, runs its action, or has its usual effect. -/
def receive (k : Runner) (n : Nat) : Exec Unit := do
  let s ← get
  let action := if n = 9 || n = 19 then none else s.traps.find? fun t => t.1 = n
  match action with
  | some (_, []) => pure ()
  | some (_, action) => k.script action
  | none =>
    match signalEffect n with
    | .nothing => pure ()
    | .stop => throw .endless
    | .terminate => throw (.killed n)

/-- Sends a signal. No process but this one is known. -/
def send (k : Runner) (n : Nat) (process : Octets) : Exec Unit := do
  let s ← get
  if process = Nat.toDigits 10 s.processId || process = ['0'] then
    setStatus 0
    receive k n
  else
    complain "kill: No such process".toList
    setStatus 1

def kill (k : Runner) : Builtin := fun args =>
  let (signal, processes) := match args with
    | ['-', 's'] :: name :: l => (signal? name, l)
    | ['-', '-'] :: l => (some 15, l)
    | ('-' :: name) :: l => (signal? name, l)
    | l => (some 15, l)
  match signal, processes with
  | none, _ => do
    complain "kill: invalid signal number or name".toList
    setStatus 2
  | some _, [] => do
    complain "Usage: kill [-s sigspec | -signum | -sigspec] [pid | job]...".toList
    setStatus 2
  | some n, _ => processes.forM (send k n)

/-- Takes a line; tells whether it had its line end. -/
def takeLine (raw : Bool) : Octets → Octets → Octets × Bool × Octets
  | done, [] => (done.reverse, false, [])
  | done, '\n' :: l => (done.reverse, true, l)
  | done, '\\' :: c :: l =>
    if raw then takeLine raw ('\\' :: done) (c :: l)
    else if c = '\n' then takeLine raw done l
    else takeLine raw (c :: done) l
  | done, c :: l => takeLine raw (c :: done) l
termination_by _ l => l.length

/-- Spreads a line over variables; the last one gets all that is left. -/
def spread (separators : Octets) : List Octets → Octets → List (Octets × Octets)
  | [], _ => []
  | [name], line =>
    let isSpace := fun c => separators.contains c && (c = ' ' || c = '\t' || c = '\n')
    [(name, ((line.dropWhile isSpace).reverse.dropWhile isSpace).reverse)]
  | name :: names, line =>
    let isSpace := fun c => separators.contains c && (c = ' ' || c = '\t' || c = '\n')
    let (field, rest) := (line.dropWhile isSpace).span fun c => !separators.contains c
    (name, field) :: spread separators names (rest.drop 1)

def readLine : Builtin := fun args => do
  let raw := args.contains "-r".toList
  let names := args.filter fun a => a.head? ≠ some '-'
  let s ← get
  match s.input with
  | none => setStatus 1
  | some input =>
    let (line, whole, rest) := takeLine raw [] input
    let values := spread s.separators names (line.filter (· ≠ '\x00'))
    set { s with
      input := some rest
      bindings := values.foldl (fun vs (name, value) => Arithmetic.write vs name value) s.bindings
      status := if whole then 0 else 1 }

def changeDirectory : Builtin := fun args => do
  let s ← get
  let path := match args.filter fun a => a ≠ ['-', '-'] with
    | a :: _ => a
    | [] => Arithmetic.read s.bindings "HOME".toList
  match s.files.locate path.toName with
  | .ok (place, .directory) =>
    set { s with files := { s.files with workingDirectory := place }, status := 0 }
  | _ =>
    complain ("cd: can't cd to ".toList ++ path)
    setStatus 2

def printDirectory : Builtin := fun _ => modify fun s =>
  let path := Octets.ofText (String.join (s.files.workingDirectory.map ("/" ++ ·)))
  (s.print ((if path.isEmpty then ['/'] else path) ++ ['\n'])).withStatus 0

/-- Builtins of which misuse ends the shell and before which assignments stay. -/
def special : List String :=
  [":", ".", "break", "continue", "eval", "exec", "exit", "export", "readonly", "return", "set",
    "shift", "times", "trap", "unset"]

/-- Runs a file of commands in this shell. -/
def source (k : Runner) : Builtin
  | [] => setStatus 0
  | path :: _ => do
    match (← get).load path with
    | .ok script => k.script script
    | .error _ => fatal (".: cannot open ".toList ++ path ++ ": No such file".toList)

/-- Replaces the shell by a program. -/
def replace (k : Runner) : Builtin
  | [] => setStatus 0
  | name :: args => do
    let s ← get
    match Program.find s.files (Arithmetic.read s.bindings "PATH".toList).toName name.toName with
    | .ok program =>
      ExceptT.mk fun s =>
        let own := { fresh s with processId := s.processId }
        let (r, t) := (Exec.program k program name args).run own
        match r with
        | .error (.killed n) => (.error (.killed n), rejoin s t)
        | .error .endless => (.error .endless, rejoin s t)
        | _ => (.error .exit, { rejoin s t with traps := [] })
    | .error .permissionDenied =>
      complain ("exec: ".toList ++ name ++ ": Permission denied".toList)
      setStatus 126
      throw .exit
    | .error _ =>
      complain ("exec: ".toList ++ name ++ ": not found".toList)
      setStatus 127
      throw .exit

/-- The builtins by name, apart from the one that runs another command. -/
def find? (k : Runner) (name : String) : Option Builtin :=
  match name with
  | ":" => some fun _ => setStatus 0
  | "true" => some fun _ => setStatus 0
  | "false" => some fun _ => setStatus 1
  | "exit" => some (ending "exit" .exit)
  | "return" => some (ending "return" .return_)
  | "break" => some (jump "break" .leave)
  | "continue" => some (jump "continue" .again)
  | "shift" => some shift
  | "export" => some (declare "export" true)
  | "readonly" => some (declare "readonly" false)
  | "local" => some (declare "local" false)
  | "unset" => some unset
  | "set" => some options
  | "trap" => some trap
  | "kill" => some (kill k)
  | "read" => some readLine
  | "cd" => some changeDirectory
  | "pwd" => some printDirectory
  | "umask" => some fun _ => setStatus 0
  | "ulimit" => some fun _ => setStatus 0
  | "wait" => some fun _ => setStatus 0
  | "times" => some fun _ => setStatus 0
  | "eval" => some fun args => do
    setStatus 0
    k.script ([' '].intercalate args)
  | "." => some (source k)
  | "exec" => some (replace k)
  | "test" => some fun args =>
    modify (Utility.testWith (fun m s => s.complain ("test: ".toList ++ m)) args)
  | "[" => some fun args =>
    modify (Utility.bracketWith (fun m s => s.complain ("[: ".toList ++ m)) args)
  | "echo" => some fun args => modify (Utility.echoWith true args)
  | "printf" => some fun args => modify (Utility.printf args)
  | _ => none

end Builtin

end HostProbe.Shell
