import HostProbe.Text.Decimal

/-!
The arguments of the command line. They are read from left to right: the first fault, or the
first request for help or the version, decides. Which flags exclude each other is looked at only
after the last argument.
-/

namespace HostProbe.CommandLine

inductive HostKind where
  | limit
  | command
  deriving DecidableEq, Repr

structure Arguments where
  capacity : Bool
  runtime : Bool
  script : Option String
  host : Option HostKind
  limit : Option Nat
  hostSpec : Option String
  json : Bool
  markdown : Bool
  noMarkdown : Bool
  verbose : Nat
  deriving DecidableEq, Repr

def Arguments.empty : Arguments :=
  ⟨false, false, none, none, none, none, false, false, false, 0⟩

/-- What a command line asks for. -/
inductive Request where
  | help
  | version
  | misuse
  | run (arguments : Arguments)
  deriving DecidableEq, Repr

/-- Switches that may be given once. -/
inductive Switch where
  | capacity | runtime | json | markdown | noMarkdown
  deriving DecidableEq, Repr

/-- Options with a value that may be given once. -/
inductive Choice where
  | script | host | limit | hostSpec
  deriving DecidableEq, Repr

inductive Name where
  | switch (s : Switch)
  | choice (c : Choice)
  | verbose
  | help
  | version
  deriving DecidableEq, Repr

/-- The long names; there are no abbreviations. -/
def Name.ofLong : String → Option Name
  | "capacity" => some (.switch .capacity)
  | "runtime" => some (.switch .runtime)
  | "json" => some (.switch .json)
  | "md" => some (.switch .markdown)
  | "no-md" => some (.switch .noMarkdown)
  | "script" => some (.choice .script)
  | "host" => some (.choice .host)
  | "limit" => some (.choice .limit)
  | "host-spec" => some (.choice .hostSpec)
  | "verbose" => some .verbose
  | "help" => some .help
  | "version" => some .version
  | _ => none

/-- The short names; none of them takes a value. -/
def Name.ofShort : Char → Option Name
  | 'v' => some .verbose
  | 'h' => some .help
  | 'V' => some .version
  | _ => none

/-- Turns a switch on, unless it is on already. -/
def Arguments.switchOn? (a : Arguments) : Switch → Option Arguments
  | .capacity => if a.capacity then none else some { a with capacity := true }
  | .runtime => if a.runtime then none else some { a with runtime := true }
  | .json => if a.json then none else some { a with json := true }
  | .markdown => if a.markdown then none else some { a with markdown := true }
  | .noMarkdown => if a.noMarkdown then none else some { a with noMarkdown := true }

def HostKind.ofName : String → Option HostKind
  | "limit" => some .limit
  | "command" => some .command
  | _ => none

/-- Gives an option its value, unless it has one already or the value is not one of its values. -/
def Arguments.choose? (a : Arguments) (value : String) : Choice → Option Arguments
  | .script => if a.script.isSome then none else some { a with script := some value }
  | .hostSpec => if a.hostSpec.isSome then none else some { a with hostSpec := some value }
  | .host =>
    if a.host.isSome then none
    else (HostKind.ofName value).map fun kind => { a with host := some kind }
  | .limit =>
    if a.limit.isSome then none
    else (Text.Decimal.word? value).map fun n => { a with limit := some n }

/-- Reads a cluster of short names. -/
def readShort (a : Arguments) : List Char → Except Request Arguments
  | [] => .ok a
  | c :: l =>
    match Name.ofShort c with
    | some .verbose => readShort { a with verbose := a.verbose + 1 } l
    | some .help => .error .help
    | some .version => .error .version
    | _ => .error .misuse

/-- Whether an argument can be the value of the option before it. -/
def isValue (arg : String) : Bool :=
  match arg.toList with
  | ['-'] => true
  | '-' :: _ => false
  | _ => true

/-- Flags that exclude each other make the command line wrong. -/
def Arguments.check (a : Arguments) : Request :=
  if a.capacity && a.runtime || a.markdown && a.noMarkdown then .misuse else .run a

/-- Splits a long argument, without its dashes, into its name and the value after an equals
sign. -/
def splitLong (l : List Char) : String × Option String :=
  match l.span (· ≠ '=') with
  | (name, []) => (String.ofList name, none)
  | (name, _ :: value) => (String.ofList name, some (String.ofList value))

/-- Reads the arguments from left to right; an option still waits for its value if `pending`. -/
def readFrom (a : Arguments) (pending : Option Choice) : List String → Request
  | [] => if pending.isSome then .misuse else a.check
  | arg :: rest =>
    match pending with
    | some choice =>
      if isValue arg then
        match a.choose? arg choice with
        | some a => readFrom a none rest
        | none => .misuse
      else .misuse
    | none =>
      match arg.toList with
      | ['-', '-'] => if rest.isEmpty then a.check else .misuse
      | '-' :: '-' :: long =>
        let (name, value) := splitLong long
        match Name.ofLong name, value with
        | some (.switch s), none =>
          match a.switchOn? s with
          | some a => readFrom a none rest
          | none => .misuse
        | some .verbose, none => readFrom { a with verbose := a.verbose + 1 } none rest
        | some .help, none => .help
        | some .version, none => .version
        | some (.choice c), some value =>
          match a.choose? value c with
          | some a => readFrom a none rest
          | none => .misuse
        | some (.choice c), none => readFrom a (some c) rest
        | _, _ => .misuse
      | '-' :: c :: short =>
        match readShort a (c :: short) with
        | .ok a => readFrom a none rest
        | .error request => request
      | _ => .misuse

/-- Reads a command line, without the name of the program. -/
def Request.ofArgs (args : List String) : Request := readFrom .empty none args

end HostProbe.CommandLine
