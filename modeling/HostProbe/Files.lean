import HostProbe.SystemError
import HostProbe.Text.Block
import HostProbe.Text.Utf8

/-!
A snapshot of a file system. Names are lists of components from the root. Every directory on the
way to an entry exists too. A path is followed component by component, and each step needs a
directory to stand in, so that `missing/..` and `file/.` lead nowhere.
-/

namespace HostProbe

inductive Content where
  | file (octets : List UInt8)
  | directory
  /-- Readable, but not a regular file. -/
  | device (octets : List UInt8)
  deriving DecidableEq, Repr

structure Files where
  entries : List (List String × Content)
  workingDirectory : List String
  deriving DecidableEq, Repr

namespace Files

def lookup (f : Files) (name : List String) : Option Content :=
  match f.entries.find? fun e => e.1 == name with
  | some (_, c) => some c
  | none =>
    if name.isEmpty || name.isPrefixOf f.workingDirectory ||
        f.entries.any fun e => name.isPrefixOf e.1 then some .directory
    else none

/-- The longest name of a component, in octets. -/
def maxComponent : Nat := 255

/-- The longest path, in octets. -/
def maxPath : Nat := 4095

/-- Follows components from a place; empty components and single dots stay there. -/
def walk (f : Files) (here : List String) : List String → Except SystemError (List String × Content)
  | [] =>
    match f.lookup here with
    | some c => .ok (here, c)
    | none => .error .notFound
  | c :: rest =>
    match f.lookup here with
    | none => .error .notFound
    | some .directory =>
      if c = "" ∨ c = "." then f.walk here rest
      else if c = ".." then f.walk here.dropLast rest
      else if maxComponent < c.utf8ByteSize then .error .nameTooLong
      else f.walk (here ++ [c]) rest
    | some _ => .error .notDirectory

/-- The name and content a path leads to, from the root or from the working directory. -/
def locate (f : Files) (path : String) : Except SystemError (List String × Content) :=
  if path.isEmpty then .error .notFound
  else if path.toList.contains '\x00' then .error .nulInName
  else if maxPath < path.utf8ByteSize then .error .nameTooLong
  else
    let start := if path.toList.head? = some '/' then [] else f.workingDirectory
    f.walk start (Text.pieces '/' path)

/-- What a path leads to. -/
def resolve (f : Files) (path : String) : Except SystemError Content :=
  match f.locate path with
  | .ok (_, c) => .ok c
  | .error e => .error e

def readOctets (f : Files) (path : String) : Except SystemError (List UInt8) :=
  match f.resolve path with
  | .ok (.file octets) => .ok octets
  | .ok (.device octets) => .ok octets
  | .ok .directory => .error .isDirectory
  | .error e => .error e

def decodeText (octets : List UInt8) : Except SystemError String :=
  (Text.Utf8.decode octets).elim (.error .invalidText) .ok

def readText (f : Files) (path : String) : Except SystemError String :=
  match f.readOctets path with
  | .ok octets => decodeText octets
  | .error e => .error e

/-- The places a path leads through, the last of them first. Nothing on the way is looked at. -/
def places (here : List String) : List String → List (List String)
  | [] => [here]
  | c :: rest =>
    if c = "" ∨ c = "." then places here rest
    else if c = ".." then places here.dropLast rest ++ [here]
    else places (here ++ [c]) rest ++ [here]

/-- Adds what a path leads to, and the directories on the way. -/
def insert (f : Files) (path : String) (content : Content) : Files :=
  let start := if path.toList.head? = some '/' then [] else f.workingDirectory
  match places start (Text.pieces '/' path) with
  | [] => f
  | last :: way =>
    { f with entries := (last, content) :: way.map (fun name => (name, .directory)) ++ f.entries }

end Files

end HostProbe
