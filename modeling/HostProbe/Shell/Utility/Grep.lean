import HostProbe.Shell.Regex
import HostProbe.Shell.Utility.Basic

/-!
The line filter: prints, counts or only looks for the lines that match a pattern.
-/

namespace HostProbe.Shell.Utility

/-- Options of the line filter. -/
structure GrepOptions where
  quiet : Bool
  fixed : Bool
  extended : Bool
  inverted : Bool
  ignoreCase : Bool
  wholeLine : Bool
  onlyCount : Bool

def GrepOptions.add (o : GrepOptions) : Char → Option GrepOptions
  | 'q' => some { o with quiet := true }
  | 's' => some o
  | 'a' => some o
  | 'F' => some { o with fixed := true }
  | 'E' => some { o with extended := true }
  | 'G' => some o
  | 'v' => some { o with inverted := true }
  | 'i' => some { o with ignoreCase := true }
  | 'x' => some { o with wholeLine := true }
  | 'c' => some { o with onlyCount := true }
  | _ => none

/-- Splits operands into options, a pattern and paths. -/
def grepOperands (o : GrepOptions) (pattern : Option Octets) (paths : List Octets) :
    List Octets → Option (GrepOptions × Option Octets × List Octets)
  | [] => some (o, pattern, paths)
  | ['-', '-'] :: l =>
    match pattern, l with
    | none, p :: l => some (o, some p, paths ++ l)
    | _, _ => some (o, pattern, paths ++ l)
  | ['-', 'e'] :: p :: l => grepOperands o (some p) paths l
  | a :: l =>
    match a with
    | '-' :: c :: r =>
      match (c :: r).foldl (fun o c => o.bind (·.add c)) (some o) with
      | some o => grepOperands o pattern paths l
      | none => none
    | _ =>
      match pattern with
      | none => grepOperands o (some a) paths l
      | some _ => grepOperands o pattern (paths ++ [a]) l

def grepRegex (o : GrepOptions) (pattern : Octets) : Option Regex :=
  let pattern := if o.ignoreCase then pattern.map Char.toLower else pattern
  let choices := (pattern.splitOn '\n').map fun p =>
    if o.fixed then some (if o.wholeLine then Regex.ofText p else (Regex.ofText p).anywhere)
    else Regex.ofPattern o.extended
      (if o.wholeLine then '^' :: p.dropWhile (· = '^') ++ ['$'] else p)
  choices.foldl (fun r c => r.bind fun r => c.map (Regex.mkAlt r)) (some .never)

def grep : Utility := fun args s =>
  match grepOperands ⟨false, false, false, false, false, false, false⟩ none [] args with
  | some (o, some pattern, paths) =>
    match grepRegex o pattern with
    | none => fail "grep" 2 "Invalid regular expression".toList s
    | some r =>
      withTexts "grep" paths s fun texts s =>
        let hit := fun line =>
          o.inverted != r.isMatch (if o.ignoreCase then line.map Char.toLower else line)
        let found := texts.flatMap fun (_, text) => (lines text).filter hit
        let s := if o.quiet then s
          else if o.onlyCount then s.print (Nat.toDigits 10 found.length ++ ['\n'])
          else found.foldl (fun s line => s.print (line ++ ['\n'])) s
        s.withStatus (if found.isEmpty then 1 else 0)
  | _ => fail "grep" 2 "invalid usage".toList s

end HostProbe.Shell.Utility
