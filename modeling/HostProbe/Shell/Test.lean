import HostProbe.Shell.State

/-!
Conditions of the `test` utility. With up to four operands their number decides how they are read;
beyond that `!` binds tighter than `-a`, and that tighter than `-o`.
-/

namespace HostProbe.Shell.Test

/-- The truth of a condition, or a complaint about it. -/
abbrev Verdict := Except Octets Bool

/-- An integer operand: blanks around, perhaps a sign, digits. -/
def number (l : Octets) : Except Octets Int :=
  let isSpace := fun c => c = ' ' || ('\t' ≤ c && c ≤ '\r')
  let trimmed := ((l.dropWhile isSpace).reverse.dropWhile isSpace).reverse
  let digits := match trimmed with
    | '-' :: r => (Text.Decimal.digits? r).map fun n => -(n : Int)
    | '+' :: r => (Text.Decimal.digits? r).map fun n => (n : Int)
    | r => (Text.Decimal.digits? r).map fun n => (n : Int)
  match digits with
  | some n => .ok n
  | none => .error ("Illegal number: ".toList ++ l)

def unaryOperators : List String :=
  ["-n", "-z", "-e", "-f", "-d", "-r", "-w", "-x", "-s", "-t", "-c", "-b", "-p", "-h", "-L", "-S",
    "-u", "-g", "-k", "-O", "-G"]

def binaryOperators : List String :=
  ["=", "!=", "<", ">", "-eq", "-ne", "-lt", "-le", "-gt", "-ge", "-nt", "-ot", "-ef"]

def isUnary (l : Octets) : Bool := unaryOperators.contains (String.ofList l)

def isBinary (l : Octets) : Bool := binaryOperators.contains (String.ofList l)

def unary (files : Files) (op : Octets) (operand : Octets) : Bool :=
  let content := (files.resolve operand.toName).toOption
  match String.ofList op with
  | "-n" => !operand.isEmpty
  | "-z" => operand.isEmpty
  | "-e" => content.isSome
  | "-r" => content.isSome
  | "-w" => content.isSome
  | "-O" => content.isSome
  | "-G" => content.isSome
  | "-x" =>
    match files.locate operand.toName with
    | .ok (_, .directory) => true
    | .ok (["bin", _], _) => true
    | .ok (["usr", "bin", _], _) => true
    | _ => false
  | "-d" => content = some .directory
  | "-f" =>
    match content with
    | some (.file _) => true
    | _ => false
  | "-s" =>
    match content with
    | some (.file octets) => !octets.isEmpty
    | some .directory => true
    | _ => false
  | "-c" =>
    match content with
    | some (.device _) => true
    | _ => false
  | _ => false

def binary (op a b : Octets) : Verdict :=
  let onNumbers (relation : Int → Int → Bool) : Verdict :=
    match number a with
    | .error e => .error e
    | .ok m =>
      match number b with
      | .error e => .error e
      | .ok n => .ok (relation m n)
  match String.ofList op with
  | "=" => .ok (a = b)
  | "!=" => .ok (a ≠ b)
  | "<" => .ok (decide (a < b))
  | ">" => .ok (decide (b < a))
  | "-eq" => onNumbers (· = ·)
  | "-ne" => onNumbers (· ≠ ·)
  | "-lt" => onNumbers (· < ·)
  | "-le" => onNumbers (· ≤ ·)
  | "-gt" => onNumbers (· > ·)
  | "-ge" => onNumbers (· ≥ ·)
  | _ => .ok false

/-- One or two operands. -/
def short (files : Files) : List Octets → Verdict
  | [] => .ok false
  | [a] => .ok (!a.isEmpty)
  | [a, b] =>
    if a = ['!'] then .ok b.isEmpty
    else if isUnary a then .ok (unary files a b)
    else if isBinary b then .error (b ++ ": argument expected".toList)
    else .error (a ++ ": unexpected operator".toList)
  | _ => .error "too many arguments".toList

/-- Three operands. -/
def three (files : Files) (a op b : Octets) : Verdict :=
  if isBinary op then binary op a b
  else if op = "-a".toList then .ok (!a.isEmpty && !b.isEmpty)
  else if op = "-o".toList then .ok (!a.isEmpty || !b.isEmpty)
  else if a = ['!'] then (short files [op, b]).map (!·)
  else if a = ['('] && b = [')'] then .ok (!op.isEmpty)
  else .error (op ++ ": unexpected operator".toList)

/-- Reads a condition without `-a` and `-o`, or one in parentheses by way of `inner`. -/
def primary (files : Files) (inner : List Octets → Except Octets (Bool × List Octets)) :
    List Octets → Except Octets (Bool × List Octets)
  | [] => .error "argument expected".toList
  | a :: l =>
    if a = ['('] then
      match inner l with
      | .ok (b, [')'] :: l) => .ok (b, l)
      | .ok _ => .error "closing paren expected".toList
      | .error e => .error e
    else
      match l with
      | op :: b :: rest =>
        if isBinary op then (binary op a b).map fun v => (v, rest)
        else if isUnary a then .ok (unary files a op, b :: rest)
        else .ok (!a.isEmpty, l)
      | [b] => if isUnary a then .ok (unary files a b, []) else .ok (!a.isEmpty, l)
      | [] => .ok (!a.isEmpty, [])

/-- A condition of any length; fuel bounds the nesting. -/
def general (files : Files) : Nat → (level : Nat) → List Octets → Except Octets (Bool × List Octets)
  | 0, _, _ => .error "argument expected".toList
  | n + 1, 0, l =>
    match general files n 1 l with
    | .ok (a, op :: rest) =>
      if op = "-o".toList then (general files n 0 rest).map fun (b, l) => (a || b, l)
      else .ok (a, op :: rest)
    | other => other
  | n + 1, 1, l =>
    match general files n 2 l with
    | .ok (a, op :: rest) =>
      if op = "-a".toList then (general files n 1 rest).map fun (b, l) => (a && b, l)
      else .ok (a, op :: rest)
    | other => other
  | n + 1, _, l =>
    match l with
    | ['!'] :: rest => (general files n 2 rest).map fun (b, l) => (!b, l)
    | _ => primary files (general files n 0) l

/-- Evaluates a condition. -/
def eval (files : Files) (args : List Octets) : Verdict :=
  match args with
  | [a, op, b] => three files a op b
  | [a, b, c, d] =>
    if a = ['!'] then (three files b c d).map (!·)
    else if a = ['('] && d = [')'] then short files [b, c]
    else rest
  | l => if l.length ≤ 2 then short files l else rest
where
  /-- The general reading, which must use every operand. -/
  rest : Verdict :=
    match general files (4 * args.length + 8) 0 args with
    | .ok (b, []) => .ok b
    | .ok (_, op :: _) => .error (op ++ ": unexpected operator".toList)
    | .error e => .error e

end HostProbe.Shell.Test
