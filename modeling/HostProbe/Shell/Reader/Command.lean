import HostProbe.Shell.Reader.Word

/-!
Reading one command: a simple one with its redirections, or a compound one.
-/

namespace HostProbe.Shell

/-- Reads a redirection, if one starts here. -/
def readRedirect (k : Readers) (l : Octets) : Option (Option Redirect × Octets) :=
  let (digits, r) := l.span Char.isDigit
  let number := digits.foldl (fun n c => 10 * n + (c.toNat - '0'.toNat)) 0
  let finish (standard : Nat) (kind : RedirectKind) (r : Octets) :=
    match readWord k (skipBlanks r) with
    | some ([], _) => none
    | some (word, r) => some (some (.mk (if digits.isEmpty then standard else number) kind word), r)
    | none => none
  match r with
  | '<' :: '&' :: r => finish 0 .copyInput r
  | '>' :: '&' :: r => finish 1 .copyOutput r
  | '>' :: '>' :: r => finish 1 .append r
  | '>' :: '|' :: r => finish 1 .output r
  | '<' :: '<' :: _ => none
  | '<' :: r => finish 0 .input r
  | '>' :: r => finish 1 .output r
  | _ => some (none, l)

/-- Reads all redirections that start here. -/
def readRedirects (k : Readers) : Nat → Octets → Option (List Redirect × Octets)
  | 0, l => some ([], l)
  | n + 1, l =>
    match readRedirect k (skipBlanks l) with
    | none => none
    | some (none, _) => some ([], l)
    | some (some r, l) => (readRedirects k n l).map fun (rest, l) => (r :: rest, l)

/-- Splits a leading assignment off, if there is one. -/
def takeAssignment (l : Octets) : Option (Octets × Octets) :=
  match l.span isNameOctet with
  | (name, '=' :: r) => if isName name then some (name, r) else none
  | _ => none

/-- Reads assignments, words and redirections in any order. -/
def readSimple (k : Readers) : Nat → List (Octets × List Part) → List Word → List Redirect →
    Reader Command
  | 0, _, _, _, _ => none
  | n + 1, assignments, words, redirects, l =>
    let l := skipSpace l
    match readRedirect k l with
    | none => none
    | some (some r, l) => readSimple k n assignments words (redirects ++ [r]) l
    | some (none, _) =>
      match l.head? with
      | none => some (.simple assignments words redirects, l)
      | some c =>
        if endsWord c then some (.simple assignments words redirects, l)
        else
          match (if words.isEmpty then takeAssignment l else none) with
          | some (name, r) =>
            match readWord k r with
            | some (value, r) => readSimple k n (assignments ++ [(name, value)]) words redirects r
            | none => none
          | none =>
            match readWord k l with
            | some (word, r) => readSimple k n assignments (words ++ [word]) redirects r
            | none => none

/-- A list of commands that a reserved word must follow. -/
def readBody (k : Readers) (closer : String) (l : Octets) : Option (Command × Octets) :=
  match k.commands false l with
  | some ([], _) => none
  | some (body, l) => (reserved closer l).map fun l => (.sequence body, l)
  | none => none

/-- Reads the clauses of a conditional after its first word. -/
def readBranch (k : Readers) : Nat → Octets → Option (List (Command × Command) × Command × Octets)
  | 0, _ => none
  | n + 1, l =>
    match readBody k "then" l with
    | none => none
    | some (condition, l) =>
      match k.commands false l with
      | none => none
      | some ([], _) => none
      | some (body, l) =>
        let clause := (condition, Command.sequence body)
        match reserved "elif" l, reserved "else" l, reserved "fi" l with
        | some l, _, _ =>
          (readBranch k n l).map fun (clauses, otherwise, l) => (clause :: clauses, otherwise, l)
        | none, some l, _ =>
          (readBody k "fi" l).map fun (otherwise, l) => ([clause], otherwise, l)
        | none, none, some l => some ([clause], .sequence [], l)
        | none, none, none => none

def readWords (k : Readers) : Nat → Octets → Option (List Word × Octets)
  | 0, _ => none
  | n + 1, l =>
    let l := skipBlanks l
    if l.head?.all endsWord then some ([], l)
    else
      match readWord k l with
      | some (word, l) => (readWords k n l).map fun (words, l) => (word :: words, l)
      | none => none

/-- Reads the patterns of an arm, separated by bars, up to the parenthesis. -/
def readPatterns (k : Readers) : Nat → Octets → Option (List Word × Octets)
  | 0, _ => none
  | n + 1, l =>
    match readWord k (skipBlanks l) with
    | some ([], _) => none
    | some (word, l) =>
      match skipBlanks l with
      | '|' :: l => (readPatterns k n l).map fun (words, l) => (word :: words, l)
      | ')' :: l => some ([word], l)
      | _ => none
    | none => none

/-- Reads the arms of a case distinction and its last word. -/
def readArms (k : Readers) : Nat → Octets → Option (List (List Word × Command) × Octets)
  | 0, _ => none
  | n + 1, l =>
    match reserved "esac" l with
    | some l => some ([], l)
    | none =>
      let l := match skipAll l with
        | '(' :: l => l
        | l => l
      match readPatterns k l.length l with
      | none => none
      | some (patterns, l) =>
        match k.commands false l with
        | none => none
        | some (body, l) =>
          let arm := (patterns, Command.sequence body)
          match skipAll l with
          | ';' :: ';' :: l => (readArms k n l).map fun (arms, l) => (arm :: arms, l)
          | l => (reserved "esac" l).map fun l => ([arm], l)

def readFor (k : Readers) (l : Octets) : Option (Command × Octets) :=
  let (name, l) := (skipBlanks l).span isNameOctet
  if !isName name then none
  else
    let words := match reserved "in" l with
      | some l => (readWords k (l.length + 1) l).map fun (words, l) => (some words, l)
      | none => some (none, l)
    match words with
    | none => none
    | some (words, l) =>
      let l := match skipSpace l with
        | ';' :: l => l
        | l => l
      match reserved "do" l with
      | none => none
      | some l => (readBody k "done" l).map fun (body, l) => (.each name words body, l)

/-- A function definition: a name and an empty pair of parentheses. -/
def takeDefinition (l : Octets) : Option (Octets × Octets) :=
  let (name, r) := l.span isNameOctet
  if !isName name then none
  else
    match skipBlanks r with
    | '(' :: r =>
      match skipBlanks r with
      | ')' :: r => some (name, r)
      | _ => none
    | _ => none

/-- Reads a compound command, if one starts here. -/
def readCompound (k : Readers) (l : Octets) : Option (Option Command × Octets) :=
  let found (r : Option (Command × Octets)) : Option (Option Command × Octets) :=
    r.map fun (c, l) => (some c, l)
  let whileLoop (whileTrue : Bool) (l : Octets) : Option (Command × Octets) :=
    match readBody k "do" l with
    | some (condition, l) =>
      (readBody k "done" l).map fun (body, l) => (.loop whileTrue condition body, l)
    | none => none
  match l with
  | '(' :: r =>
    match k.commands false r with
    | some ([], _) => none
    | some (body, ')' :: r) => some (some (.subshell (.sequence body)), r)
    | _ => none
  | _ =>
    match reserved "\x7b" l, reserved "if" l, reserved "while" l, reserved "until" l,
      reserved "for" l, reserved "case" l with
    | some l, _, _, _, _, _ => found (readBody k "\x7d" l)
    | _, some l, _, _, _, _ =>
      found ((readBranch k (l.length + 1) l).map fun (clauses, otherwise, l) =>
        (.branch clauses otherwise, l))
    | _, _, some l, _, _, _ => found (whileLoop true l)
    | _, _, _, some l, _, _ => found (whileLoop false l)
    | _, _, _, _, some l, _ => found (readFor k l)
    | _, _, _, _, _, some l =>
      match readWord k (skipBlanks l) with
      | some (word, l) =>
        match reserved "in" l with
        | some l =>
          found ((readArms k (l.length + 1) l).map fun (arms, l) => (.select word arms, l))
        | none => none
      | none => none
    | _, _, _, _, _, _ => some (none, l)

/-- Reads one command with its redirections. -/
def readCommand (k : Readers) (l : Octets) : Option (Command × Octets) :=
  let l := skipSpace l
  match takeDefinition l with
  | some (name, l) =>
    match readCompound k (skipAll l) with
    | some (some body, l) => some (.define name body, l)
    | _ => none
  | none =>
    match readCompound k l with
    | none => none
    | some (some c, l) =>
      (readRedirects k l.length l).map fun (redirects, l) =>
        (if redirects.isEmpty then c else .redirected c redirects, l)
    | some (none, _) =>
      match readSimple k (l.length + 1) [] [] [] l with
      | some (.simple [] [] [], _) => none
      | other => other

end HostProbe.Shell
