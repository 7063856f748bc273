import HostProbe.Shell.Exec
import HostProbe.Shell.Pattern

/-!
Expansion of words: parameters, command substitutions and arithmetic. What comes out of an
expansion outside quotes is split into fields.
-/

namespace HostProbe.Shell

/-- The octets that separate fields. -/
def State.separators (s : State) : Octets :=
  ((s.bindings.find? fun v => v.1 = "IFS".toList).map Prod.snd).getD [' ', '\t', '\n']

/-- The value of a parameter, if it is set. -/
def State.parameter? (s : State) (name : Octets) : Option Octets :=
  match name with
  | ['?'] => some (Nat.toDigits 10 s.status)
  | ['$'] => some (Nat.toDigits 10 s.processId)
  | ['#'] => some (Nat.toDigits 10 s.parameters.length)
  | ['-'] => some []
  | ['!'] => none
  | ['0'] => some s.zero
  | ['@'] => if s.parameters.isEmpty then none else some ([' '].intercalate s.parameters)
  | ['*'] => if s.parameters.isEmpty then none else some ([' '].intercalate s.parameters)
  | _ =>
    match Text.Decimal.digits? name with
    | some n => if n = 0 then some s.zero else s.parameters[n - 1]?
    | none => (s.bindings.find? fun v => v.1 = name).map Prod.snd

namespace Cell

def ofText (quoted : Bool) (text : Octets) : List Cell :=
  if quoted then .mark :: text.map (.octet .quoted) else text.map (.octet .expanded)

/-- All parameters: in quotes one field each, or joined into one. -/
def ofList (quoted joined : Bool) (texts : List Octets) : List Cell :=
  if quoted && joined then ofText true ([' '].intercalate texts)
  else if quoted && texts.isEmpty then [.nothing]
  else List.intercalate [.gap] (texts.map (ofText quoted))

/-- A word that stands in for the value of a parameter counts as its value. -/
def asExpanded : Cell → Cell
  | .octet .literal c => .octet .expanded c
  | other => other

/-- The text of cells that are not split. -/
def text (cells : List Cell) : Octets :=
  cells.filterMap fun
    | .octet _ c => some c
    | .gap => some ' '
    | _ => none

/-- The pattern that cells spell; quoted octets stand for themselves. -/
def pattern (cells : List Cell) : Pattern :=
  let marked := cells.filterMap fun
    | .octet origin c => some (c, origin ≠ .quoted)
    | _ => none
  .ofMarked marked.length marked

end Cell

/-- Fields found so far, latest first, and the one being read, with its latest octet first. -/
structure Splitter where
  done : List Octets
  current : Option Octets
  /-- A quoted list of no parameters was seen in the field. -/
  hollow : Bool

namespace Splitter

def finish (f : Splitter) : Splitter :=
  match f.current with
  | none => { f with hollow := false }
  | some [] => if f.hollow then ⟨f.done, none, false⟩ else ⟨[] :: f.done, none, false⟩
  | some text => ⟨text.reverse :: f.done, none, false⟩

def push (f : Splitter) (c : Char) : Splitter := { f with current := some (c :: f.current.getD []) }

def add (separators : Octets) (f : Splitter) : Cell → Splitter
  | .mark => { f with current := some (f.current.getD []) }
  | .nothing => { f with hollow := true }
  | .gap => f.finish
  | .octet .expanded c =>
    if !separators.contains c then f.push c
    else if c = ' ' || c = '\t' || c = '\n' then f.finish
    else { f with current := some (f.current.getD []) }.finish
  | .octet _ c => f.push c

/-- The fields of expanded words. -/
def split (separators : Octets) (cells : List Cell) : List Octets :=
  (cells.foldl (add separators) ⟨[], none, false⟩).finish.done.reverse

end Splitter

namespace Exec

/-- Drops the line ends at the end of captured output, and all zero octets. -/
def trimCaptured (text : Octets) : Octets :=
  ((text.filter (· ≠ '\x00')).reverse.dropWhile (· = '\n')).reverse

/-- Runs a command substitution. -/
def substitute (k : Runner) (body : List Command) : Exec Octets := do
  let before ← get
  let text ← capture k (k.command (.sequence body))
  modify fun s => { s with substituted := some s.status, status := before.status }
  pure (trimCaptured text)

/-- The cells of a set parameter. -/
def valueCells (quoted : Bool) (name value : Octets) : Exec (List Cell) := do
  let s ← get
  pure <| match name with
    | ['@'] => Cell.ofList quoted false s.parameters
    | ['*'] => Cell.ofList quoted true s.parameters
    | _ => Cell.ofText quoted value

/-- Expands one form of a parameter. -/
def parameter (k : Runner) (quoted : Bool) (name : Octets) (form : Form) : Exec (List Cell) := do
  let s ← get
  let value := s.parameter? name
  match form with
  | .plain =>
    match value with
    | some v => valueCells quoted name v
    | none =>
      if s.strict && name ≠ ['@'] && name ≠ ['*'] then
        fatal (name ++ ": parameter not set".toList)
      else valueCells quoted name []
  | .length => pure (Cell.ofText quoted (Nat.toDigits 10 (value.getD []).length))
  | .cut atEnd longest pattern =>
    let p := Cell.pattern (← k.word pattern)
    pure (Cell.ofText quoted (p.cut atEnd longest (value.getD [])))
  | .fallback kind colon word =>
    let present := match value with
      | some v => !(colon && v.isEmpty)
      | none => false
    let substitute : Exec (List Cell) := do
      let cells ← k.word word
      pure (if quoted then .mark :: cells else cells.map Cell.asExpanded)
    match kind, present with
    | .replace, true => substitute
    | .replace, false => pure (Cell.ofText quoted [])
    | _, true => valueCells quoted name (value.getD [])
    | .use, false => substitute
    | .assign, false =>
      let text := Cell.text (← k.word word)
      modify fun s => { s with bindings := Arithmetic.write s.bindings name text }
      pure (Cell.ofText quoted text)
    | .complain, false =>
      let text := Cell.text (← k.word word)
      let text := if text.isEmpty then
          "parameter not set".toList ++ (if colon then " or null".toList else [])
        else text
      fatal (name ++ ": ".toList ++ text)

/-- Expands one part of a word. -/
def part (k : Runner) : Part → Exec (List Cell)
  | .literal text => pure (text.map (.octet .literal))
  | .quoted text => pure (.mark :: text.map (.octet .quoted))
  | .parameter quoted name form => parameter k quoted name form
  | .command quoted body => do pure (Cell.ofText quoted (← substitute k body))
  | .arithmetic quoted body => do
    let text := Cell.text (← k.word body)
    let s ← get
    match Arithmetic.eval s.bindings text with
    | some (n, bindings) =>
      set { s with bindings := bindings }
      pure (Cell.ofText quoted (Arithmetic.ofInt n))
    | none => fatal ("arithmetic expression: expecting primary: \"".toList ++ text ++ ['"'])

/-- Expands the parts of a word from the left. -/
def parts (k : Runner) : Word → Exec (List Cell)
  | [] => pure []
  | p :: rest => do
    let first ← part k p
    let others ← parts k rest
    pure (first ++ others)

/-- Expands a word to one text. -/
def text (k : Runner) (word : Word) : Exec Octets := do pure (Cell.text (← k.word word))

/-- Expands words to fields. -/
def fields (k : Runner) : List Word → Exec (List Octets)
  | [] => pure []
  | word :: words => do
    let cells ← k.word word
    let here := Splitter.split (← get).separators cells
    let others ← fields k words
    pure (here ++ others)

end Exec

end HostProbe.Shell
