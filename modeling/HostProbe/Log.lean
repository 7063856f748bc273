import HostProbe.Text.Blank
import HostProbe.Text.Block

/-!
Log records and the filter that selects which of them are written. A filter is a list of
directives `name=level`, separated by commas; a directive without a name speaks for every
target, one without a level admits everything from its target.
-/

namespace HostProbe.Log

inductive Level where
  | error | warn | info | debug | trace
  deriving DecidableEq, Repr

/-- How talkative a level is; a threshold admits the levels up to its own. -/
def Level.rank : Level → Nat
  | .error => 1
  | .warn => 2
  | .info => 3
  | .debug => 4
  | .trace => 5

/-- The name of a level, five columns wide. -/
def Level.label : Level → String
  | .error => "ERROR"
  | .warn => "WARN "
  | .info => "INFO "
  | .debug => "DEBUG"
  | .trace => "TRACE"

structure Record where
  level : Level
  target : String
  message : String
  deriving DecidableEq, Repr

/-- The further lines of a message are indented by four blanks. -/
def indentMessage (s : String) : String :=
  String.intercalate "\n    " (Text.pieces '\n' s)

def Record.line (r : Record) : String :=
  "[" ++ r.level.label ++ " " ++ r.target ++ "] " ++ indentMessage r.message

/-- A threshold is the rank of the most talkative admitted level, zero for silence. -/
structure Directive where
  name : Option String
  threshold : Nat
  deriving DecidableEq, Repr

/-- Directives, and a text that every written message must contain. -/
structure Filter where
  directives : List Directive
  needle : Option String
  deriving DecidableEq, Repr

/-- The result of reading a filter: the filter and a complaint for each part that was ignored. -/
structure Reading where
  filter : Filter
  complaints : List String
  deriving DecidableEq, Repr

/-- Reads a level name in any ASCII case. -/
def threshold? (s : String) : Option Nat :=
  match Text.asciiLower s with
  | "off" => some 0
  | "error" => some Level.error.rank
  | "warn" => some Level.warn.rank
  | "info" => some Level.info.rank
  | "debug" => some Level.debug.rank
  | "trace" => some Level.trace.rank
  | _ => none

/-- Reads one directive, already trimmed and not empty. -/
def directive? (s : String) : Except String Directive :=
  match Text.pieces '=' s with
  | [part] =>
    match threshold? part with
    | some level => .ok ⟨none, level⟩
    | none => .ok ⟨some part, Level.trace.rank⟩
  | [name, level] =>
    let level := Text.trim level
    if level.isEmpty then .ok ⟨some name, Level.trace.rank⟩
    else match threshold? level with
      | some level => .ok ⟨some name, level⟩
      | none => .error ("invalid logging spec '" ++ level ++ "'")
  | _ => .error ("invalid logging spec '" ++ s ++ "'")

/-- A later directive for the same name replaces the earlier one in its place. -/
def addDirective (d : Directive) : List Directive → List Directive
  | [] => [d]
  | e :: l => if e.name = d.name then d :: l else e :: addDirective d l

def readDirectives (parts : List String) : List Directive × List String :=
  parts.foldl (fun (directives, complaints) part =>
    let part := Text.trim part
    if part.isEmpty then (directives, complaints)
    else match directive? part with
      | .ok d => (addDirective d directives, complaints)
      | .error e => (directives, complaints ++ [e])) ([], [])

/-- With no directive at all only errors are written. -/
def orErrorsOnly : List Directive → List Directive
  | [] => [⟨none, Level.error.rank⟩]
  | l => l

/-- Reads a filter: directives, then optionally a slash and the text to look for. -/
def readFilter (s : String) : Reading :=
  match Text.pieces '/' s with
  | mods :: rest =>
    match rest with
    | _ :: _ :: _ =>
      ⟨⟨orErrorsOnly [], none⟩, ["invalid logging spec '" ++ s ++ "' (too many '/'s)"]⟩
    | _ =>
      let (directives, complaints) := readDirectives (Text.pieces ',' mods)
      ⟨⟨orErrorsOnly directives, rest.head?⟩, complaints⟩
  | [] => ⟨⟨orErrorsOnly [], none⟩, []⟩

def Directive.weight (d : Directive) : Nat := (d.name.map String.utf8ByteSize).getD 0

def Directive.covers (d : Directive) (target : String) : Bool :=
  match d.name with
  | none => true
  | some name => name.toList.isPrefixOf target.toList

/-- Of the directives that cover a target, the one with the longest name decides; among equals
the last. -/
def deciding (target : String) (directives : List Directive) : Option Directive :=
  directives.foldl (fun best d =>
    if d.covers target then
      match best with
      | some b => if b.weight ≤ d.weight then some d else some b
      | none => some d
    else best) none

def Filter.admits (f : Filter) (r : Record) : Bool :=
  (match deciding r.target f.directives with
    | some d => decide (r.level.rank ≤ d.threshold)
    | none => false) &&
  (match f.needle with
    | some needle => Text.containsBlock needle.toList r.message.toList
    | none => true)

/-- The written lines: complaints about the filter, then the admitted records. -/
def Reading.lines (r : Reading) (records : List Record) : List String :=
  r.complaints.map (fun c => "warning: " ++ c ++ ", ignoring it") ++
    (records.filter r.filter.admits).map Record.line

end HostProbe.Log
