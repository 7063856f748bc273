import HostProbe.Shell.Octets

/-!
Regular expressions, matched by derivatives: the derivative by an octet matches the rest of what
the expression matches after that octet.
-/

namespace HostProbe.Shell

inductive Regex where
  | never
  | empty
  | set (negated : Bool) (ranges : List (Char × Char))
  | seq (r s : Regex)
  | alt (r s : Regex)
  | star (r : Regex)
  deriving DecidableEq, Repr

namespace Regex

def octet (c : Char) : Regex := .set false [(c, c)]

def any : Regex := .set true []

/-- Whether the empty text matches. -/
def nullable : Regex → Bool
  | never => false
  | empty => true
  | set _ _ => false
  | seq r s => r.nullable && s.nullable
  | alt r s => r.nullable || s.nullable
  | star _ => true

def mkSeq : Regex → Regex → Regex
  | never, _ => never
  | _, never => never
  | empty, s => s
  | r, empty => r
  | r, s => seq r s

/-- Every choice is listed once, so that derivatives stay small. -/
def insertChoice (r : Regex) : Regex → Regex
  | alt s t => if r = s then alt s t else alt s (insertChoice r t)
  | never => r
  | s => if r = s then s else alt s r

def mkAlt : Regex → Regex → Regex
  | never, s => s
  | alt r t, s => mkAlt t (insertChoice r s)
  | r, s => insertChoice r s

def derive (c : Char) : Regex → Regex
  | never => never
  | empty => never
  | set negated ranges =>
    if negated != ranges.any fun (a, b) => a ≤ c && c ≤ b then empty else never
  | seq r s =>
    let first := mkSeq (derive c r) s
    if r.nullable then mkAlt first (derive c s) else first
  | alt r s => mkAlt (derive c r) (derive c s)
  | star r => mkSeq (derive c r) (star r)

/-- Whether the expression matches a whole text. -/
def isMatch (r : Regex) : Octets → Bool
  | [] => r.nullable
  | c :: l => (derive c r).isMatch l

/-- Reads the inside of a bracket expression. -/
def readRanges : List (Char × Char) → Octets → Option (List (Char × Char) × Octets)
  | _, [] => none
  | done, ']' :: l => if done.isEmpty then readRanges [(']', ']')] l else some (done, l)
  | done, a :: '-' :: b :: l =>
    if b = ']' then some (('-', '-') :: (a, a) :: done, l) else readRanges ((a, b) :: done) l
  | done, a :: l => readRanges ((a, a) :: done) l

/-- A token of an expression; in the basic syntax the grouping signs need a backslash. -/
inductive Token where
  | atom (r : Regex)
  | many
  | oneOrMore
  | optionally
  | bar
  | opening
  | closing
  | lineStart
  | lineEnd

def plainToken : Char → Token
  | '.' => .atom any
  | '*' => .many
  | '^' => .lineStart
  | '$' => .lineEnd
  | c => .atom (octet c)

def groupToken? : Char → Option Token
  | '(' => some .opening
  | ')' => some .closing
  | '|' => some .bar
  | '+' => some .oneOrMore
  | '?' => some .optionally
  | _ => none

def tokens (extended : Bool) : Nat → Octets → Option (List Token)
  | 0, _ => some []
  | _, [] => some []
  | n + 1, '\\' :: c :: l =>
    let token := if extended then .atom (octet c) else (groupToken? c).getD (.atom (octet c))
    (tokens extended n l).map (token :: ·)
  | _, ['\\'] => none
  | n + 1, '[' :: l =>
    let (negated, l) := match l with
      | '^' :: l => (true, l)
      | l => (false, l)
    match readRanges [] l with
    | some (ranges, l) => (tokens extended n l).map (.atom (.set negated ranges) :: ·)
    | none => none
  | n + 1, c :: l =>
    let token := if extended then (groupToken? c).getD (plainToken c) else plainToken c
    (tokens extended n l).map (token :: ·)

/-- Applies repetition signs to an expression. -/
def repeated : Regex → List Token → Regex × List Token
  | r, .many :: l => repeated (star r) l
  | r, .oneOrMore :: l => repeated (seq r (star r)) l
  | r, .optionally :: l => repeated (alt r empty) l
  | r, l => (r, l)

/-- Reads alternatives up to a closing sign; fuel bounds the nesting and the length. -/
def readChoices : Nat → Regex → Regex → List Token → Option (Regex × List Token)
  | 0, _, _, _ => none
  | _, before, branch, [] => some (mkAlt before branch, [])
  | n + 1, before, branch, t :: l =>
    match t with
    | .bar => readChoices n (mkAlt before branch) empty l
    | .closing => some (mkAlt before branch, t :: l)
    | .opening =>
      match readChoices n never empty l with
      | some (inside, .closing :: l) =>
        let (r, l) := repeated inside l
        readChoices n before (mkSeq branch r) l
      | _ => none
    | .atom r =>
      let (r, l) := repeated r l
      readChoices n before (mkSeq branch r) l
    | .many =>
      let (r, l) := repeated (octet '*') l
      readChoices n before (mkSeq branch r) l
    | .oneOrMore => readChoices n before (mkSeq branch (octet '+')) l
    | .optionally => readChoices n before (mkSeq branch (octet '?')) l
    | .lineStart => readChoices n before (mkSeq branch (octet '^')) l
    | .lineEnd => readChoices n before (mkSeq branch (octet '$')) l

/-- Reads an expression that may match anywhere in a line; a circumflex at its start and a dollar
sign at its end tie it to the ends of the line. -/
def ofPattern (extended : Bool) (l : Octets) : Option Regex :=
  match tokens extended (l.length + 1) l with
  | none => none
  | some ts =>
    let (atStart, ts) := match ts with
      | .lineStart :: ts => (true, ts)
      | ts => (false, ts)
    let (atEnd, ts) := match ts.getLast? with
      | some .lineEnd => (true, ts.dropLast)
      | _ => (false, ts)
    match readChoices (2 * ts.length + 2) never empty ts with
    | some (r, []) =>
      let r := if atStart then r else mkSeq (star any) r
      some (if atEnd then r else mkSeq r (star any))
    | _ => none

/-- An expression for a fixed text. -/
def ofText (l : Octets) : Regex := l.foldr (fun c r => mkSeq (octet c) r) empty

/-- An expression that may match anywhere. -/
def anywhere (r : Regex) : Regex := mkSeq (star any) (mkSeq r (star any))

end Regex

end HostProbe.Shell
