import HostProbe.Shell.Syntax

/-!
Reading the words of the command language. Words, expansions and command lists contain each other;
each function reads one layer and gets the readers for the layers inside as an argument.
-/

namespace HostProbe.Shell

abbrev Reader (α : Type) := Octets → Option (α × Octets)

/-- The readers that the layers call: the parts of a word up to a terminator, with or without
double quotes around them, and a list of commands. -/
structure Readers where
  parts : (inQuotes : Bool) → (ends : Char → Bool) → Reader (List Part)
  commands : (oneLine : Bool) → Reader (List Command)

/-- Characters that end a word. -/
def endsWord (c : Char) : Bool :=
  c = ' ' || c = '\t' || c = '\n' || c = ';' || c = '&' || c = '|' || c = '<' || c = '>' ||
    c = '(' || c = ')'

/-- Characters with a meaning inside a word. -/
def isActive (c : Char) : Bool :=
  c = '\\' || c = '\'' || c = '"' || c = '$' || c = Char.ofNat 96

def skipBlanks : Octets → Octets
  | '\\' :: '\n' :: l => skipBlanks l
  | c :: l => if isBlankOctet c then skipBlanks l else c :: l
  | [] => []

def skipComment (l : Octets) : Octets :=
  match l with
  | '#' :: _ => l.dropWhile (· ≠ '\n')
  | _ => l

/-- Skips blanks and a comment. -/
def skipSpace (l : Octets) : Octets := skipComment (skipBlanks l)

/-- Skips blanks, comments and line ends. -/
def skipLines : Nat → Octets → Octets
  | 0, l => l
  | n + 1, l =>
    match skipSpace l with
    | '\n' :: l => skipLines n l
    | l => l

def skipAll (l : Octets) : Octets := skipLines l.length l

/-- Takes the text up to the parenthesis that closes an arithmetic expansion. -/
def takeArithmetic : Nat → Octets → Octets → Option (Octets × Octets)
  | _, _, [] => none
  | 0, done, ')' :: ')' :: l => some (done.reverse, l)
  | 0, _, ')' :: _ => none
  | depth + 1, done, ')' :: l => takeArithmetic depth (')' :: done) l
  | depth, done, '(' :: l => takeArithmetic (depth + 1) ('(' :: done) l
  | depth, done, c :: l => takeArithmetic depth (c :: done) l

/-- Takes the text of an old-style command substitution, dropping one layer of backslashes. -/
def takeBackquoted : Octets → Octets → Option (Octets × Octets)
  | _, [] => none
  | done, '\\' :: c :: l =>
    if c = '$' || c = '\\' || c = Char.ofNat 96 then takeBackquoted (c :: done) l
    else takeBackquoted (c :: '\\' :: done) l
  | done, c :: l =>
    if c = Char.ofNat 96 then some (done.reverse, l) else takeBackquoted (c :: done) l

def takeQuoted : Octets → Octets → Option (Octets × Octets)
  | _, [] => none
  | done, '\'' :: l => some (done.reverse, l)
  | done, c :: l => takeQuoted (c :: done) l

/-- Parameters with a one-character name. -/
def isSpecial (c : Char) : Bool :=
  c.isDigit || c = '@' || c = '*' || c = '#' || c = '?' || c = '$' || c = '!' || c = '-'

def closesBrace (c : Char) : Bool := c = '\x7d'

/-- Reads the name of a parameter inside braces. -/
def takeParameter (l : Octets) : Option (Octets × Octets) :=
  match l with
  | [] => none
  | c :: r =>
    if isNameStart c then some (l.span isNameOctet)
    else if c.isDigit then some (l.span Char.isDigit)
    else if isSpecial c then some ([c], r)
    else none

/-- Reads what follows the name of a parameter, up to the closing brace. -/
def readForm (k : Readers) (quoted : Bool) (l : Octets) : Option (Form × Octets) :=
  let close (form : List Part → Form) (l : Octets) : Option (Form × Octets) :=
    match k.parts quoted closesBrace l with
    | some (word, '\x7d' :: l) => some (form word, l)
    | _ => none
  match l with
  | '\x7d' :: l => some (.plain, l)
  | ':' :: '-' :: l => close (.fallback .use true) l
  | ':' :: '=' :: l => close (.fallback .assign true) l
  | ':' :: '?' :: l => close (.fallback .complain true) l
  | ':' :: '+' :: l => close (.fallback .replace true) l
  | '-' :: l => close (.fallback .use false) l
  | '=' :: l => close (.fallback .assign false) l
  | '?' :: l => close (.fallback .complain false) l
  | '+' :: l => close (.fallback .replace false) l
  | '%' :: '%' :: l => close (.cut true true) l
  | '%' :: l => close (.cut true false) l
  | '#' :: '#' :: l => close (.cut false true) l
  | '#' :: l => close (.cut false false) l
  | _ => none

/-- Reads an expansion after its dollar sign. A dollar sign before anything else is a character. -/
def readDollar (k : Readers) (quoted : Bool) (l : Octets) : Option (Part × Octets) :=
  match l with
  | '(' :: '(' :: r =>
    match takeArithmetic 0 [] r with
    | some (body, r) =>
      match k.parts true (fun _ => false) body with
      | some (body, []) => some (.arithmetic quoted body, r)
      | _ => none
    | none => none
  | '(' :: r =>
    match k.commands false r with
    | some (body, ')' :: r) => some (.command quoted body, r)
    | _ => none
  | '\x7b' :: '#' :: '\x7d' :: r => some (.parameter quoted ['#'] .plain, r)
  | '\x7b' :: '#' :: r =>
    match takeParameter r with
    | some (name, '\x7d' :: r) => some (.parameter quoted name .length, r)
    | _ => none
  | '\x7b' :: r =>
    match takeParameter r with
    | some (name, r) =>
      match readForm k quoted r with
      | some (form, r) => some (.parameter quoted name form, r)
      | none => none
    | none => none
  | c :: r =>
    if isNameStart c then
      let (name, r) := l.span isNameOctet
      some (.parameter quoted name .plain, r)
    else if isSpecial c then some (.parameter quoted [c] .plain, r)
    else some (if quoted then .quoted ['$'] else .literal ['$'], l)
  | [] => some (if quoted then .quoted ['$'] else .literal ['$'], [])

/-- Reads the first part of a word; nothing when a terminator comes first. -/
def readPart (k : Readers) (inQuotes : Bool) (ends : Char → Bool) (l : Octets) :
    Option (Option (List Part) × Octets) :=
  match l with
  | [] => some (none, [])
  | c :: r =>
    if ends c then some (none, l)
    else if c = '$' then (readDollar k inQuotes r).map fun (part, r) => (some [part], r)
    else if c = Char.ofNat 96 then
      match takeBackquoted [] r with
      | none => none
      | some (body, r) =>
        match k.commands false body with
        | some (body, []) => some (some [.command inQuotes body], r)
        | _ => none
    else if c = '\\' then
      match r with
      | [] => some (some [.quoted ['\\']], [])
      | '\n' :: r => some (some [], r)
      | d :: r =>
        if inQuotes && !(d = '$' || d = '"' || d = '\\' || d = Char.ofNat 96 || ends d) then
          some (some [.quoted ['\\', d]], r)
        else some (some [.quoted [d]], r)
    else if c = '"' && !inQuotes then
      match k.parts true (· = '"') r with
      | some (body, _ :: r) => some (some (.quoted [] :: body), r)
      | _ => none
    else if c = '"' then
      match k.parts true (· = '"') r with
      | some (body, _ :: r) => some (some body, r)
      | _ => none
    else if c = '\'' && !inQuotes then
      (takeQuoted [] r).map fun (text, r) => (some [.quoted text], r)
    else
      let (text, r) := r.span fun d => !isActive d && !ends d
      some (some [if inQuotes then .quoted (c :: text) else .literal (c :: text)], r)

def readParts (k : Readers) (inQuotes : Bool) (ends : Char → Bool) : Reader (List Part) := fun l =>
  match readPart k inQuotes ends l with
  | none => none
  | some (none, l) => some ([], l)
  | some (some parts, l) => (k.parts inQuotes ends l).map fun (rest, l) => (parts ++ rest, l)

def readWord (k : Readers) : Reader Word := k.parts false endsWord

/-- The plain characters at the start of a command, to look for reserved words. -/
def peek (l : Octets) : Octets := l.takeWhile fun c => !endsWord c && !isActive c

/-- Consumes a reserved word that stands alone. -/
def reserved (word : String) (l : Octets) : Option Octets :=
  let l := skipAll l
  let rest := l.drop word.length
  if peek l = word.toList && (rest.head?.all endsWord) then some rest else none

/-- Words that end a list of commands. -/
def closers : List String := ["then", "else", "elif", "fi", "do", "done", "esac", "\x7d"]

def atCloser (l : Octets) : Bool := closers.any fun w => (reserved w l).isSome

end HostProbe.Shell
