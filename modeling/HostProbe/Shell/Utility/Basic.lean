import HostProbe.Shell.State

/-!
Utilities that are not part of the shell. Each gets its operands and the state of the process, and
leaves its exit status in the state. Here: how they complain and how they read their operands.
-/

namespace HostProbe.Shell

abbrev Utility := List Octets → State → State

namespace Utility

/-- A complaint of a utility about itself. -/
def fail (name : String) (status : Nat) (message : Octets) (s : State) : State :=
  (s.printError (name.toList ++ ": ".toList ++ message ++ ['\n'])).withStatus status

/-- A complaint that points to the help text. -/
def failWithHint (name : String) (message : Octets) (s : State) : State :=
  fail name 1 (message ++ "\nTry '".toList ++ name.toList ++
    " --help' for more information.".toList) s

/-- Takes everything that is left on standard input. -/
def takeInput (s : State) : Octets × State :=
  (s.input.getD [], { s with input := s.input.map fun _ => [] })

/-- Reads an operand; a dash is standard input. -/
def readOperand (path : Octets) (s : State) : Except SystemError (Octets × State) :=
  if path = ['-'] then .ok (takeInput s)
  else (s.readPath path).map fun text => (text, s)

def systemMessage (e : SystemError) : Octets :=
  match e with
  | .notFound => "No such file or directory".toList
  | .isDirectory => "Is a directory".toList
  | .notDirectory => "Not a directory".toList
  | .nameTooLong => "File name too long".toList
  | other => other.message.toList

/-- The lines of a text; a line end at the very end starts no further line. -/
def lines (text : Octets) : List Octets :=
  let l := text.splitOn '\n'
  if l.getLast? = some [] then l.dropLast else l

/-- Reads all operands (standard input if there are none) and goes on with their texts. -/
def withTexts (name : String) (paths : List Octets) (s : State)
    (go : List (Octets × Octets) → State → State) : State :=
  let paths' := if paths.isEmpty then [['-']] else paths
  let (texts, s, failed) := paths'.foldl (fun (texts, s, failed) path =>
    match readOperand path s with
    | .ok (text, s) => (texts ++ [(path, text)], s, failed)
    | .error e =>
      (texts, fail name 1 (path ++ ": ".toList ++ systemMessage e) s, true)) ([], s, false)
  let s := go texts (s.withStatus 0)
  if failed then s.withStatus 1 else s

end Utility

end HostProbe.Shell
