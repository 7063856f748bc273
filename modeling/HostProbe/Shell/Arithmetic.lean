import HostProbe.Shell.Octets

/-!
Arithmetic expressions over signed words of 64 bits. Each function reads one level of precedence;
the argument `inner` reads a whole expression inside parentheses or after an operator that binds
to the right.
-/

namespace HostProbe.Shell.Arithmetic

/-- Variables are read and written as texts. -/
abbrev Variables := List (Octets × Octets)

def read (vars : Variables) (name : Octets) : Octets :=
  ((vars.find? fun p => p.1 = name).map Prod.snd).getD []

def write (vars : Variables) (name value : Octets) : Variables :=
  (name, value) :: vars.filter fun p => p.1 ≠ name

/-- Words are signed and have 64 bits. -/
def wrap (n : Int) : Int := Int.bmod n 18446744073709551616

/-- Value of a list of digits in a base. -/
def digitsIn? (base : Nat) (l : Octets) : Option Nat :=
  l.foldl (fun n c => n.bind fun n =>
    let d := if c.isDigit then c.toNat - '0'.toNat
      else if 'a' ≤ c && c ≤ 'f' then c.toNat - 'a'.toNat + 10
      else if 'A' ≤ c && c ≤ 'F' then c.toNat - 'A'.toNat + 10
      else 99
    if d < base then some (base * n + d) else none) (some 0)

/-- A constant: decimal, octal with a leading zero, or hexadecimal. -/
def constant? : Octets → Option Int
  | [] => none
  | '0' :: 'x' :: l => if l.isEmpty then none else (digitsIn? 16 l).map fun n => wrap n
  | '0' :: l => (digitsIn? 8 l).map fun n => wrap n
  | l => (digitsIn? 10 l).map fun n => wrap n

/-- An integer in a variable: blanks around, perhaps a sign. Unset and empty count as zero. -/
def integer? (l : Octets) : Option Int :=
  let isSpace := fun c => c = ' ' || c = '\t' || c = '\n'
  let l := ((l.dropWhile isSpace).reverse.dropWhile isSpace).reverse
  match l with
  | [] => some 0
  | '-' :: l => (constant? l).map fun n => wrap (-n)
  | '+' :: l => constant? l
  | l => constant? l

def ofInt (n : Int) : Octets :=
  (if n < 0 then ['-'] else []) ++ Nat.toDigits 10 n.natAbs

abbrev Parse := Variables → Octets → Option (Int × Variables × Octets)

def skip (l : Octets) : Octets := l.dropWhile fun c => c = ' ' || c = '\t' || c = '\n'

/-- Operators by level of precedence, the loosest first; longer ones before their beginnings. -/
def levels : List (List String) :=
  [["||"], ["&&"], ["|"], ["^"], ["&"], ["==", "!="], ["<=", ">=", "<", ">"], ["<<", ">>"],
    ["+", "-"], ["*", "/", "%"]]

/-- Operators that must not be taken for a shorter one. -/
def isLonger (op : String) (rest : Octets) : Bool :=
  match op, rest with
  | "|", '|' :: _ => true
  | "&", '&' :: _ => true
  | "<", '<' :: _ => true
  | ">", '>' :: _ => true
  | _, '=' :: _ => op ≠ "==" && op ≠ "!=" && op ≠ "<=" && op ≠ ">="
  | _, _ => false

def truth (b : Bool) : Int := if b then 1 else 0

/-- Applies a binary operator; nothing for a division by zero. -/
def apply (op : String) (a b : Int) : Option Int :=
  match op with
  | "||" => some (truth (a ≠ 0 || b ≠ 0))
  | "&&" => some (truth (a ≠ 0 && b ≠ 0))
  | "|" => some (wrap ((wrap a).toInt64 ||| (wrap b).toInt64).toInt)
  | "^" => some (wrap ((wrap a).toInt64 ^^^ (wrap b).toInt64).toInt)
  | "&" => some (wrap ((wrap a).toInt64 &&& (wrap b).toInt64).toInt)
  | "==" => some (truth (a = b))
  | "!=" => some (truth (a ≠ b))
  | "<=" => some (truth (a ≤ b))
  | ">=" => some (truth (a ≥ b))
  | "<" => some (truth (a < b))
  | ">" => some (truth (a > b))
  | "<<" => some (wrap (a * Int.pow 2 (b.toNat % 64)))
  | ">>" => some (a / Int.pow 2 (b.toNat % 64))
  | "+" => some (wrap (a + b))
  | "-" => some (wrap (a - b))
  | "*" => some (wrap (a * b))
  | "/" => if b = 0 then none else some (wrap (a.tdiv b))
  | "%" => if b = 0 then none else some (wrap (a.tmod b))
  | _ => none

/-- Signs, parentheses, constants and variables. -/
def primary (inner : Parse) : Nat → Parse
  | 0, _, _ => none
  | n + 1, vars, l =>
    match skip l with
    | '-' :: l => (primary inner n vars l).map fun (v, s) => (wrap (-v), s)
    | '+' :: l => primary inner n vars l
    | '!' :: l => (primary inner n vars l).map fun (v, s) => (truth (v = 0), s)
    | '~' :: l => (primary inner n vars l).map fun (v, s) => (-v - 1, s)
    | '(' :: l =>
      match inner vars l with
      | some (v, vars, l) =>
        match skip l with
        | ')' :: l => some (v, vars, l)
        | _ => none
      | none => none
    | l =>
      let (word, rest) := l.span isNameOctet
      match word with
      | [] => none
      | c :: _ =>
        if c.isDigit then (constant? word).map fun v => (v, vars, rest)
        else (integer? (read vars word)).map fun v => (v, vars, rest)

/-- Applies the operators of one level from the left. -/
def chain (ops : List String) (operand : Parse) : Nat → Int → Parse
  | 0, _, _, _ => none
  | n + 1, left, vars, l =>
    let here := skip l
    let hit := ops.find? fun op =>
      op.toList.isPrefixOf here && !isLonger op (here.drop op.length)
    match hit with
    | none => some (left, vars, l)
    | some op =>
      match operand vars (here.drop op.length) with
      | none => none
      | some (right, vars, l) =>
        match apply op left right with
        | some v => chain ops operand n v vars l
        | none => none

/-- All binary operators, from the given levels inwards. -/
def binary (inner : Parse) : List (List String) → Parse
  | [], vars, l => primary inner (l.length + 1) vars l
  | ops :: levels, vars, l =>
    match binary inner levels vars l with
    | some (left, vars, l) => chain ops (binary inner levels) (l.length + 1) left vars l
    | none => none

/-- Takes an assignment operator: its binary operator (empty for plain assignment). -/
def takeAssignment (l : Octets) : Option (String × Octets) :=
  match skip l with
  | '=' :: '=' :: _ => none
  | '=' :: l => some ("", l)
  | l =>
    let ops := ["<<", ">>", "+", "-", "*", "/", "%", "&", "|", "^"]
    (ops.find? fun op => (op ++ "=").toList.isPrefixOf l).map fun op =>
      (op, l.drop (op.length + 1))

/-- A whole expression: an assignment, or a condition with its two cases. -/
def expression : Nat → Parse
  | 0, _, _ => none
  | n + 1, vars, l =>
    let (name, rest) := (skip l).span isNameOctet
    match (if isName name then takeAssignment rest else none) with
    | some (op, rest) =>
      match expression n vars rest with
      | none => none
      | some (v, vars, l) =>
        let result := if op.isEmpty then some v
          else (integer? (read vars name)).bind fun old => apply op old v
        result.map fun v => (v, write vars name (ofInt v), l)
    | none =>
      match binary (expression n) levels vars l with
      | none => none
      | some (v, vars, l) =>
        match skip l with
        | '?' :: l =>
          match expression n vars l with
          | none => none
          | some (a, vars, l) =>
            match skip l with
            | ':' :: l =>
              (expression n vars l).map fun (b, s) => (if v ≠ 0 then a else b, s)
            | _ => none
        | _ => some (v, vars, l)

/-- Evaluates an expression and gives its value with the variables after it. -/
def eval (vars : Variables) (l : Octets) : Option (Int × Variables) :=
  if (skip l).isEmpty then some (0, vars)
  else
    match expression (l.length + 1) vars l with
    | some (v, vars, rest) => if (skip rest).isEmpty then some (v, vars) else none
    | none => none

end HostProbe.Shell.Arithmetic
