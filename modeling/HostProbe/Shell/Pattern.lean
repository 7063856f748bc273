import HostProbe.Shell.Octets

/-!
Patterns: a star matches any text, a question mark any one octet, brackets one octet of a set.
Quoted characters match only themselves.
-/

namespace HostProbe.Shell

/-- One element of a pattern. -/
inductive PatternItem where
  | star
  | any
  | octet (c : Char)
  | set (negated : Bool) (ranges : List (Char × Char))
  deriving DecidableEq, Repr

abbrev Pattern := List PatternItem

def PatternItem.matchesOctet (c : Char) : PatternItem → Bool
  | .star => false
  | .any => true
  | .octet d => c = d
  | .set negated ranges => negated != ranges.any fun (a, b) => a ≤ c && c ≤ b

/-- Octets of a pattern, each with whether it is active (`true`) or quoted. -/
abbrev Marked := List (Char × Bool)

/-- Reads the ranges of a bracket expression up to its closing bracket. -/
def takeRanges : List (Char × Char) → Marked → Option (List (Char × Char) × Marked)
  | _, [] => none
  | done, (']', true) :: l =>
    if done.isEmpty then takeRanges [(']', ']')] l else some (done, l)
  | done, (a, _) :: ('-', true) :: (b, active) :: l =>
    if b = ']' && active then some (('-', '-') :: (a, a) :: done, l)
    else takeRanges ((a, b) :: done) l
  | done, (a, _) :: l => takeRanges ((a, a) :: done) l

/-- Reads a pattern from marked octets. -/
def Pattern.ofMarked : Nat → Marked → Pattern
  | 0, _ => []
  | _, [] => []
  | n + 1, (c, active) :: l =>
    if active && c = '*' then .star :: ofMarked n l
    else if active && c = '?' then .any :: ofMarked n l
    else if active && c = '[' then
      let (negated, inside) := match l with
        | ('!', true) :: r => (true, r)
        | r => (false, r)
      match takeRanges [] inside with
      | some (ranges, r) => .set negated ranges :: ofMarked n r
      | none => .octet c :: ofMarked n l
    else .octet c :: ofMarked n l

/-- Whether a pattern matches a whole text. -/
def Pattern.isMatch : Pattern → Octets → Bool
  | [], l => l.isEmpty
  | .star :: p, [] => isMatch p []
  | .star :: p, c :: l => isMatch p (c :: l) || isMatch (.star :: p) l
  | _ :: _, [] => false
  | item :: p, c :: l => item.matchesOctet c && isMatch p l
termination_by p l => p.length + l.length

/-- Cuts what matches off the start or the end of a text, as little or as much as possible. -/
def Pattern.cut (p : Pattern) (atEnd longest : Bool) (l : Octets) : Octets :=
  let cuts := List.range (l.length + 1)
  let cuts := if atEnd == longest then cuts else cuts.reverse
  let hit := cuts.find? fun n => isMatch p (if atEnd then l.drop n else l.take n)
  match hit with
  | some n => if atEnd then l.take n else l.drop n
  | none => l

end HostProbe.Shell
