import HostProbe.Files
import HostProbe.Settings.RcFile
import HostProbe.Table
import HostProbe.Text.Decimal

/-!
Settings: built-in defaults, overwritten by the rc file, overwritten by five variables of the
environment. The rc file may set any key; of the environment only the five keys are seen.
-/

namespace HostProbe

/-- Variables, and the home directory of the account for when `HOME` says nothing. -/
structure Environment where
  bindings : List (String × String)
  accountHome : Option String
  deriving DecidableEq, Repr

def Environment.get? (e : Environment) (name : String) : Option String :=
  (e.bindings.find? fun p => p.1 == name).map Prod.snd

/-- Appends a component to a directory. -/
def joinPath (directory component : String) : String :=
  if directory.isEmpty || directory.toList.getLast? = some '/' then directory ++ component
  else directory ++ "/" ++ component

def Environment.home? (e : Environment) : Option String :=
  match e.get? "HOME" with
  | some home => if home.isEmpty then e.accountHome else some home
  | none => e.accountHome

/-- The directory for configuration: `XDG_CONFIG_HOME` if it is absolute, else below the home
directory. -/
def Environment.configDirectory (e : Environment) : String :=
  match e.home? with
  | none => "~/.config"
  | some home =>
    match e.get? "XDG_CONFIG_HOME" with
    | some directory =>
      if directory.toList.head? = some '/' then directory else joinPath home ".config"
    | none => joinPath home ".config"

/-- The directory of this program's own configuration. -/
def Environment.ownDirectory (e : Environment) : String :=
  joinPath e.configDirectory "vkprobe"

structure Settings where
  values : Table String
  path : String
  deriving DecidableEq, Repr

namespace Settings

def hostKey : String := "VKPROBE_HOST"
def limitKey : String := "VKPROBE_HOST_LIMIT"
def specKey : String := "VKPROBE_HOST_SPEC"
def markdownKey : String := "VKPROBE_PRETTIFY_MARKDOWN"
def logKey : String := "VKPROBE_LOG"

/-- The keys that the environment may set. -/
def environmentKeys : List String := [hostKey, limitKey, specKey, markdownKey, logKey]

def defaults (e : Environment) : List (String × String) :=
  [(hostKey, "limit"), (limitKey, "10000"), (specKey, joinPath e.ownDirectory "host.json"),
    (markdownKey, "false"), (logKey, "warn")]

/-- The variables of the environment that are settings. -/
def overlay (e : Environment) : List (String × String) :=
  e.bindings.filter fun p => environmentKeys.contains p.1

/-- Builds settings from the contents of an rc file (empty when there is none). -/
def ofLayers (rc : List UInt8) (e : Environment) (path : String) : Settings :=
  let table := Table.ofPairs (defaults e)
  let table := table.insertAll (RcFile.assignments rc)
  ⟨table.insertAll (overlay e), path⟩

/-- Loads settings with the rc file at a path; a file that cannot be read counts as empty. -/
def loadFrom (files : Files) (e : Environment) (path : String) : Settings :=
  ofLayers ((files.readOctets path).toOption.getD []) e path

/-- The usual place of the rc file. -/
def defaultPath (e : Environment) : String := joinPath e.ownDirectory ".vkproberc"

def load (files : Files) (e : Environment) : Settings := loadFrom files e (defaultPath e)

def get? (s : Settings) (key : String) : Option String := Table.find? key s.values

/-- Only the word true, in any ASCII case, is true. -/
def getBool (s : Settings) (key : String) : Bool :=
  (s.get? key).any fun v => Text.asciiLower v == "true"

def getWord? (s : Settings) (key : String) : Option Nat := (s.get? key).bind Text.Decimal.word?

/-- An empty value names no path. -/
def getPath? (s : Settings) (key : String) : Option String :=
  (s.get? key).filter fun v => !v.isEmpty

def hostKind (s : Settings) : String := (s.get? hostKey).getD "limit"

def hostLimit? (s : Settings) : Option Nat := s.getWord? limitKey

def hostSpecPath? (s : Settings) : Option String := s.getPath? specKey

def logFilter (s : Settings) : String := (s.get? logKey).getD "warn"

/-- Whether reports are rendered as markdown unless a flag says otherwise. -/
def markdown (s : Settings) : Bool := s.getBool markdownKey

end Settings

end HostProbe
