import HostProbe.Json.Basic

/-!
Writing JSON, compact or indented by two blanks. Quotes, backslashes and control characters
below U+0020 are escaped, everything else stands for itself; an empty list or object is written
without a line break.
-/

namespace HostProbe.Json

/-- Hexadecimal digit, small letters. -/
def hexDigit (n : Nat) : Char := Nat.digitChar (n % 16)

/-- A four-digit escape. -/
def unitEscape (n : Nat) : List Char :=
  ['\\', 'u', hexDigit (n / 4096), hexDigit (n / 256), hexDigit (n / 16), hexDigit n]

def writeChar (c : Char) : List Char :=
  if c = '"' then ['\\', '"']
  else if c = '\\' then ['\\', '\\']
  else if c = '\x08' then ['\\', 'b']
  else if c = '\t' then ['\\', 't']
  else if c = '\n' then ['\\', 'n']
  else if c = '\x0c' then ['\\', 'f']
  else if c = '\r' then ['\\', 'r']
  else if c.toNat < 0x20 then unitEscape c.toNat
  else [c]

def writePiece : Piece → List Char
  | .char c => writeChar c
  | .surrogate unit => unitEscape unit

def writeString (pieces : List Piece) : List Char :=
  '"' :: pieces.flatMap writePiece ++ ['"']

mutual

/-- Without any blank. -/
def compact : Json → List Char
  | .null => "null".toList
  | .bool b => (if b then "true" else "false").toList
  | .number literal => literal.toList
  | .string pieces => writeString pieces
  | .array items => '[' :: compactItems items ++ [']']
  | .object members => '\x7b' :: compactMembers members ++ ['\x7d']

def compactItems : List Json → List Char
  | [] => []
  | [v] => compact v
  | v :: l => compact v ++ ',' :: compactItems l

def compactMembers : List (List Piece × Json) → List Char
  | [] => []
  | [(k, v)] => writeString k ++ ':' :: compact v
  | (k, v) :: l => writeString k ++ ':' :: compact v ++ ',' :: compactMembers l

end

/-- A line break and the indentation of a depth. -/
def newline (depth : Nat) : List Char := '\n' :: List.replicate (2 * depth) ' '

mutual

/-- Indented, each element on a line of its own; `depth` counts the enclosing brackets. -/
def pretty (depth : Nat) : Json → List Char
  | .null => "null".toList
  | .bool b => (if b then "true" else "false").toList
  | .number literal => literal.toList
  | .string pieces => writeString pieces
  | .array [] => ['[', ']']
  | .array (v :: l) => '[' :: prettyItems depth (v :: l) ++ newline depth ++ [']']
  | .object [] => ['\x7b', '\x7d']
  | .object (m :: l) => '\x7b' :: prettyMembers depth (m :: l) ++ newline depth ++ ['\x7d']

def prettyItems (depth : Nat) : List Json → List Char
  | [] => []
  | [v] => newline (depth + 1) ++ pretty (depth + 1) v
  | v :: l => newline (depth + 1) ++ pretty (depth + 1) v ++ ',' :: prettyItems depth l

def prettyMembers (depth : Nat) : List (List Piece × Json) → List Char
  | [] => []
  | [(k, v)] => newline (depth + 1) ++ writeString k ++ ": ".toList ++ pretty (depth + 1) v
  | (k, v) :: l =>
    newline (depth + 1) ++ writeString k ++ ": ".toList ++ pretty (depth + 1) v ++
      ',' :: prettyMembers depth l

end

/-- The indented text of a document. -/
def render (v : Json) : String := String.ofList (pretty 0 v)

end HostProbe.Json
