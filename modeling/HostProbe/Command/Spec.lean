import HostProbe.Files
import HostProbe.Json.Reader
import HostProbe.Json.Writer
import HostProbe.Text.Blank

/-!
Specs of external hosts: a program, templates for its arguments, whether the script is also given
on standard input, and a timeout in seconds. A spec file holds a JSON object whose unknown members
are ignored, or an array with the same four values in order; all but the program may be left out.
-/

namespace HostProbe.Command

structure Spec where
  program : String
  arguments : List String
  stdin : Bool
  timeout : Option Nat
  deriving DecidableEq, Repr

namespace Spec

def text? : Json → Option String
  | .string pieces => Json.text? pieces
  | _ => none

def texts? : Json → Option (List String)
  | .array items => items.mapM text?
  | _ => none

def bool? : Json → Option Bool
  | .bool b => some b
  | _ => none

/-- Null, or a literal of digits only that fits a 64-bit word. -/
def timeout? : Json → Option (Option Nat)
  | .null => some none
  | .number literal =>
    ((Text.Decimal.digits? literal.toList).bind Text.Decimal.inWord).map some
  | _ => none

/-- A value that may be left out. -/
def orDefault {α : Type} (default : α) (read : Json → Option α) : Option Json → Option α
  | some v => read v
  | none => some default

/-- Builds a spec from values that may be left out; the program may not. -/
def ofParts (program arguments stdin timeout : Option Json) : Option Spec := do
  let program ← program.bind text?
  let arguments ← orDefault [] texts? arguments
  let stdin ← orDefault false bool? stdin
  let timeout ← orDefault none timeout? timeout
  return ⟨program, arguments, stdin, timeout⟩

/-- The value of a key that occurs at most once: no result when it occurs more often. -/
def member? (key : String) (members : List (String × Json)) : Option (Option Json) :=
  match members.filter fun m => m.1 == key with
  | [] => some none
  | [(_, v)] => some (some v)
  | _ => none

def ofMembers (members : List (String × Json)) : Option Spec := do
  let program ← member? "program" members
  let arguments ← member? "args_template" members
  let stdin ← member? "stdin" members
  let timeout ← member? "timeout_sec" members
  ofParts program arguments stdin timeout

/-- The members with their keys as texts; a key with half a surrogate pair is refused. -/
def textMembers? (members : List (List Json.Piece × Json)) : Option (List (String × Json)) :=
  members.mapM fun (key, v) => (Json.text? key).map fun key => (key, v)

def ofJson : Json → Option Spec
  | .object members => (textMembers? members).bind ofMembers
  | .array items =>
    if items.length ≤ 4 then ofParts items[0]? items[1]? items[2]? items[3]? else none
  | _ => none

/-- Reads the text of a spec file. -/
def read (s : String) : Option Spec := (Json.parse s).bind ofJson

/-- The spec as an object with all four members. -/
def document (h : Spec) : Json :=
  .ofFields [("program", .ofText h.program), ("args_template", .array (h.arguments.map .ofText)),
    ("stdin", .bool h.stdin), ("timeout_sec", .ofOption .ofNat h.timeout)]

/-- The first `n` of the four values. -/
def sequence (h : Spec) (n : Nat) : Json :=
  .array ([Json.ofText h.program, .array (h.arguments.map .ofText), .bool h.stdin,
    .ofOption .ofNat h.timeout].take n)

inductive Error where
  | unreadable (path : String) (cause : SystemError)
  | malformed (path : String)
  | emptyProgram (path : String)
  deriving DecidableEq, Repr

/-- The messages of an error, the outermost first. -/
def Error.chain : Error → List String
  | .unreadable path cause => ["reading host spec: " ++ path, cause.message]
  | .malformed path => ["parsing host spec: " ++ path, "<json error>"]
  | .emptyProgram path => ["host spec " ++ path ++ " has an empty program"]

/-- Accepts the text of a spec file if it is well formed and its program is not blank. -/
def check (path : String) (s : String) : Except Error Spec :=
  match read s with
  | none => .error (.malformed path)
  | some h => if Text.allBlank h.program then .error (.emptyProgram path) else .ok h

/-- Loads a spec file. -/
def load (files : Files) (path : String) : Except Error Spec :=
  match files.readText path with
  | .error e => .error (.unreadable path e)
  | .ok s => check path s

end Spec

end HostProbe.Command
