import HostProbe.Json.Basic

/-!
Reading JSON. The whole text must be one document. Between tokens blanks, tabs and line ends are
skipped; strings hold no control characters below U+0020; numbers have no leading zeros. Two
escapes that form a surrogate pair are one character; half a pair is kept as it is. Nesting may
have any depth.
-/

namespace HostProbe.Json

def isSpace (c : Char) : Bool := c = ' ' || c = '\n' || c = '\t' || c = '\r'

def skipSpace (l : List Char) : List Char := l.dropWhile isSpace

def hexValue? (c : Char) : Option Nat :=
  if '0' ≤ c && c ≤ '9' then some (c.toNat - '0'.toNat)
  else if 'a' ≤ c && c ≤ 'f' then some (c.toNat - 'a'.toNat + 10)
  else if 'A' ≤ c && c ≤ 'F' then some (c.toNat - 'A'.toNat + 10)
  else none

/-- The value of a four-digit escape. -/
def unit? (a b c d : Char) : Option Nat := do
  let a ← hexValue? a
  let b ← hexValue? b
  let c ← hexValue? c
  let d ← hexValue? d
  return ((a * 16 + b) * 16 + c) * 16 + d

/-- The character of a single-letter escape. -/
def escaped? (c : Char) : Option Char :=
  match c with
  | '"' => some '"'
  | '\\' => some '\\'
  | '/' => some '/'
  | 'b' => some '\x08'
  | 'f' => some '\x0c'
  | 'n' => some '\n'
  | 'r' => some '\r'
  | 't' => some '\t'
  | _ => none

/-- Adds an escaped unit to the pieces read so far (latest first): the second half of a surrogate
pair is joined with the first. -/
def addUnit (unit : Nat) (done : List Piece) : List Piece :=
  if 0xDC00 ≤ unit && unit ≤ 0xDFFF then
    match done with
    | .surrogate high :: before =>
      if 0xD800 ≤ high && high ≤ 0xDBFF then
        .char (Char.ofNat (0x10000 + (high - 0xD800) * 0x400 + (unit - 0xDC00))) :: before
      else .surrogate unit :: done
    | _ => .surrogate unit :: done
  else if 0xD800 ≤ unit && unit ≤ 0xDBFF then .surrogate unit :: done
  else .char (Char.ofNat unit) :: done

/-- Reads the rest of a string after its opening quote. -/
def readString (done : List Piece) : List Char → Option (List Piece × List Char)
  | [] => none
  | '"' :: r => some (done.reverse, r)
  | '\\' :: 'u' :: a :: b :: c :: d :: r =>
    match unit? a b c d with
    | some unit => readString (addUnit unit done) r
    | none => none
  | '\\' :: c :: r =>
    match escaped? c with
    | some c => readString (.char c :: done) r
    | none => none
  | c :: r => if c.toNat < 0x20 || c = '\\' then none else readString (.char c :: done) r

def takeDigits (l : List Char) : List Char × List Char := l.span Char.isDigit

/-- The integer part of a number: a single zero, or digits that do not start with zero. -/
def readWhole (l : List Char) : Option (List Char × List Char) :=
  match takeDigits l with
  | ([], _) => none
  | (['0'], r) => some (['0'], r)
  | ('0' :: _, _) => none
  | (digits, r) => some (digits, r)

/-- A point and at least one digit, or nothing. -/
def readFraction (l : List Char) : Option (List Char × List Char) :=
  match l with
  | '.' :: r =>
    match takeDigits r with
    | ([], _) => none
    | (digits, r) => some ('.' :: digits, r)
  | r => some ([], r)

/-- An exponent mark, perhaps a sign, and at least one digit, or nothing. -/
def readExponent (l : List Char) : Option (List Char × List Char) :=
  let digitsAfter (mark r : List Char) :=
    match takeDigits r with
    | ([], _) => none
    | (digits, r) => some (mark ++ digits, r)
  match l with
  | e :: r =>
    if e = 'e' || e = 'E' then
      match r with
      | '+' :: r => digitsAfter [e, '+'] r
      | '-' :: r => digitsAfter [e, '-'] r
      | r => digitsAfter [e] r
    else some ([], l)
  | [] => some ([], [])

/-- Reads a number and keeps its literal. -/
def readNumber (l : List Char) : Option (Json × List Char) := do
  let (sign, l) := match l with
    | '-' :: r => (['-'], r)
    | r => ([], r)
  let (whole, l) ← readWhole l
  let (fraction, l) ← readFraction l
  let (exponent, l) ← readExponent l
  return (.number (String.ofList (sign ++ whole ++ fraction ++ exponent)), l)

mutual

/-- Reads a value; the fuel bounds the nesting and the number of elements. -/
def readValue : Nat → List Char → Option (Json × List Char)
  | 0, _ => none
  | fuel + 1, l =>
    match skipSpace l with
    | 'n' :: 'u' :: 'l' :: 'l' :: r => some (.null, r)
    | 't' :: 'r' :: 'u' :: 'e' :: r => some (.bool true, r)
    | 'f' :: 'a' :: 'l' :: 's' :: 'e' :: r => some (.bool false, r)
    | '"' :: r => (readString [] r).map fun (pieces, r) => (.string pieces, r)
    | '[' :: r =>
      match skipSpace r with
      | ']' :: r => some (.array [], r)
      | r => (readItems fuel r).map fun (items, r) => (.array items, r)
    | '\x7b' :: r =>
      match skipSpace r with
      | '\x7d' :: r => some (.object [], r)
      | r => (readMembers fuel r).map fun (members, r) => (.object members, r)
    | r => readNumber r

/-- Reads at least one element and the closing bracket. -/
def readItems : Nat → List Char → Option (List Json × List Char)
  | 0, _ => none
  | fuel + 1, l =>
    match readValue fuel l with
    | none => none
    | some (v, r) =>
      match skipSpace r with
      | ']' :: r => some ([v], r)
      | ',' :: r => (readItems fuel r).map fun (items, r) => (v :: items, r)
      | _ => none

/-- Reads at least one member and the closing brace. -/
def readMembers : Nat → List Char → Option (List (List Piece × Json) × List Char)
  | 0, _ => none
  | fuel + 1, l =>
    match skipSpace l with
    | '"' :: r =>
      match readString [] r with
      | none => none
      | some (key, r) =>
        match skipSpace r with
        | ':' :: r =>
          match readValue fuel r with
          | none => none
          | some (v, r) =>
            match skipSpace r with
            | '\x7d' :: r => some ([(key, v)], r)
            | ',' :: r => (readMembers fuel r).map fun (members, r) => ((key, v) :: members, r)
            | _ => none
        | _ => none
    | _ => none

end

/-- Reads a document. Each level of nesting costs a bracket and at most two units of fuel, each
further element at least two characters and one unit. -/
def parse (s : String) : Option Json :=
  match readValue (2 * s.length + 2) s.toList with
  | some (v, r) => if (skipSpace r).isEmpty then some v else none
  | none => none

end HostProbe.Json
