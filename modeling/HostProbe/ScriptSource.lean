import HostProbe.Files
import HostProbe.Text.Blank

/-!
Where script bodies come from: a file, or standard input under the name `-`. Editors append line
ends; they are not part of the script.
-/

namespace HostProbe.ScriptSource

inductive Error where
  | missing (path : String)
  | notRegular (path : String)
  | unreadable (path : String) (cause : SystemError)
  | unreadableInput (cause : SystemError)
  deriving DecidableEq, Repr

def Error.message : Error → String
  | .missing path => "Script file '" ++ path ++ "' does not exist"
  | .notRegular path => "'" ++ path ++ "' is not a file"
  | .unreadable path cause => "Failed to read script '" ++ path ++ "': " ++ cause.message
  | .unreadableInput cause => cause.message

def isLineEnd (c : Char) : Bool := c = '\n' || c = '\r'

/-- Removes all line ends at the end of a text. -/
def trimTrailingNewlines (s : String) : String :=
  String.ofList (Text.dropTrailing isLineEnd s.toList)

def ofInput (input : List UInt8) : Except Error String :=
  match Files.decodeText input with
  | .ok s => .ok (trimTrailingNewlines s)
  | .error e => .error (.unreadableInput e)

def ofPath (files : Files) (path : String) : Except Error String :=
  match files.resolve path with
  | .error _ => .error (.missing path)
  | .ok (.file octets) =>
    match Files.decodeText octets with
    | .ok s => .ok (trimTrailingNewlines s)
    | .error e => .error (.unreadable path e)
  | .ok _ => .error (.notRegular path)

/-- Reads a script body by path. -/
def read (files : Files) (input : List UInt8) (path : String) : Except Error String :=
  if path = "-" then ofInput input else ofPath files path

end HostProbe.ScriptSource
