import HostProbe.Shell.Octets

/-!
The command language of the simulated machine's shell: words with their expansions, redirections
and commands.
-/

namespace HostProbe.Shell

inductive RedirectKind where
  | input | output | append | copyInput | copyOutput
  deriving DecidableEq, Repr

/-- What a parameter expansion does with a value that is unset (or, with a colon, empty). -/
inductive Fallback where
  | use | assign | complain | replace
  deriving DecidableEq, Repr

mutual

/-- A part of a word. Quoted text is taken literally; an expansion that is not quoted is split
into fields. -/
inductive Part where
  | literal (text : Octets)
  | quoted (text : Octets)
  | parameter (quoted : Bool) (name : Octets) (form : Form)
  | command (quoted : Bool) (body : List Command)
  | arithmetic (quoted : Bool) (body : List Part)

/-- Forms of parameter expansion. -/
inductive Form where
  | plain
  | length
  | fallback (kind : Fallback) (colon : Bool) (word : List Part)
  | cut (atEnd : Bool) (longest : Bool) (pattern : List Part)

inductive Redirect where
  | mk (descriptor : Nat) (kind : RedirectKind) (word : List Part)

inductive Command where
  | simple (assignments : List (Octets × List Part)) (words : List (List Part))
      (redirects : List Redirect)
  | pipeline (negated : Bool) (stages : List Command)
  | both (first second : Command)
  | either (first second : Command)
  | background (command : Command)
  | sequence (commands : List Command)
  | branch (clauses : List (Command × Command)) (otherwise : Command)
  | loop (whileTrue : Bool) (condition body : Command)
  | each (name : Octets) (words : Option (List (List Part))) (body : Command)
  | select (word : List Part) (arms : List (List (List Part) × Command))
  | subshell (body : Command)
  | redirected (command : Command) (redirects : List Redirect)
  | define (name : Octets) (body : Command)

end

abbrev Word := List Part

instance : Inhabited Command := ⟨.sequence []⟩

end HostProbe.Shell
