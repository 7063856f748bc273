import HostProbe.Text.Blank
import HostProbe.Text.Utf8

/-!
The rc file: lines `key = value`. Blank lines, lines that start with a number sign and lines
without an equals sign say nothing. Reading stops at the first line that is not valid UTF-8.
-/

namespace HostProbe.RcFile

/-- Splits at the first equals sign. -/
def splitAssignment (line : List Char) : Option (List Char × List Char) :=
  match line.span (· ≠ '=') with
  | (_, []) => none
  | (key, _ :: value) => some (key, value)

/-- The assignment a line makes, with blanks trimmed around key and value. -/
def assignment? (line : String) : Option (String × String) :=
  match Text.trimChars line.toList with
  | [] => none
  | '#' :: _ => none
  | l => (splitAssignment l).map fun (key, value) =>
      (String.ofList (Text.trimChars key), String.ofList (Text.trimChars value))

/-- The lines, as octets, without their line feeds. A carriage return before a line feed needs no
care: it is blank and trimmed away. -/
def rawLines (octets : List UInt8) : List (List UInt8) := octets.splitOn 10

/-- The lines before the first one that cannot be decoded. -/
def decodeLines : List (List UInt8) → List String
  | [] => []
  | l :: rest =>
    match Text.Utf8.decode l with
    | some line => line :: decodeLines rest
    | none => []

/-- All assignments of a file, in order. -/
def assignments (octets : List UInt8) : List (String × String) :=
  (decodeLines (rawLines octets)).filterMap assignment?

end HostProbe.RcFile
