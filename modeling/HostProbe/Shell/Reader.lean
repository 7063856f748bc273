import HostProbe.Shell.Reader.Command

/-!
Reading lists of commands and whole scripts. `readers` ties the layers together for a given depth.
-/

namespace HostProbe.Shell

/-- Reads the stages of a pipeline. -/
def readStages (k : Readers) : Nat → Octets → Option (List Command × Octets)
  | 0, _ => none
  | n + 1, l =>
    match readCommand k l with
    | none => none
    | some (c, l) =>
      match skipSpace l with
      | '|' :: '|' :: _ => some ([c], l)
      | '|' :: l => (readStages k n (skipAll l)).map fun (rest, l) => (c :: rest, l)
      | _ => some ([c], l)

def readPipeline (k : Readers) (l : Octets) : Option (Command × Octets) :=
  let (negated, l) := match reserved "!" l with
    | some l => (true, l)
    | none => (false, l)
  (readStages k (l.length + 1) l).map fun (stages, l) =>
    match negated, stages with
    | false, [c] => (c, l)
    | _, _ => (.pipeline negated stages, l)

/-- Reads pipelines joined by `&&` and `||`, which bind alike and to the left. -/
def readAndOr (k : Readers) : Nat → Command → Octets → Option (Command × Octets)
  | 0, _, _ => none
  | n + 1, left, l =>
    match skipSpace l with
    | '&' :: '&' :: l =>
      match readPipeline k (skipAll l) with
      | some (right, l) => readAndOr k n (.both left right) l
      | none => none
    | '|' :: '|' :: l =>
      match readPipeline k (skipAll l) with
      | some (right, l) => readAndOr k n (.either left right) l
      | none => none
    | l => some (left, l)

/-- Reads commands up to something that cannot start one, or to the end of the line. -/
def readCommands (k : Readers) (oneLine : Bool) : Nat → List Command → Reader (List Command)
  | 0, _, _ => none
  | n + 1, done, l =>
    let l := if oneLine && !done.isEmpty then skipSpace l else skipAll l
    match l with
    | [] => some (done.reverse, [])
    | '\n' :: _ => some (done.reverse, l)
    | ')' :: _ => some (done.reverse, l)
    | ';' :: ';' :: _ => some (done.reverse, l)
    | _ =>
      if atCloser l then some (done.reverse, l)
      else
        match readPipeline k l with
        | none => none
        | some (c, l) =>
          match readAndOr k (l.length + 1) c l with
          | none => none
          | some (c, l) =>
            match skipSpace l with
            | ';' :: ';' :: _ => some ((c :: done).reverse, l)
            | ';' :: l => readCommands k oneLine n (c :: done) l
            | '&' :: l => readCommands k oneLine n (.background c :: done) l
            | '\n' :: r =>
              if oneLine then some ((c :: done).reverse, l)
              else readCommands k oneLine n (c :: done) r
            | l => some ((c :: done).reverse, l)

/-- The readers for texts that need at most `depth` calls between layers. -/
def readers : Nat → Readers
  | 0 => ⟨fun _ _ _ => none, fun _ _ => none⟩
  | depth + 1 =>
    let k := readers depth
    ⟨readParts k, fun oneLine l => readCommands k oneLine (l.length + 1) [] l⟩

/-- The result of reading the next line of a script. -/
inductive NextLine where
  | finished
  | wrong
  | line (commands : List Command) (rest : Octets)

/-- Reads the next complete command line of a script. -/
def nextLine (l : Octets) : NextLine :=
  match skipAll l with
  | [] => .finished
  | l =>
    match (readers (2 * l.length + 4)).commands true l with
    | none => .wrong
    | some ([], _) => .wrong
    | some (commands, rest) =>
      match skipSpace rest with
      | [] => .line commands []
      | '\n' :: rest => .line commands rest
      | _ => .wrong

end HostProbe.Shell
