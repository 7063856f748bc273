import HostProbe.Shell.Expansion
import HostProbe.Shell.Utility

/-!
Programs of the simulated machine: where they are found, and what starting one does. The shell is
itself a program; its operands name a script, a file with one, or neither.
-/

namespace HostProbe.Shell

namespace Program

/-- The directories that hold programs, and a file that cannot be run. -/
def entries : List (List String × Content) :=
  (programs.flatMap fun p => [(["bin", p], .file []), (["usr", "bin", p], .file [])]) ++
    [(["usr", "local", "bin"], .directory), (["usr", "local", "sbin"], .directory),
      (["usr", "sbin"], .directory), (["sbin"], .directory), (["tmp"], .directory),
      (["etc", "passwd"], .file []), (["dev", "null"], .device [])]

def standardSearchPath : String := "/usr/local/sbin:/usr/local/bin:/usr/sbin:/usr/bin:/sbin:/bin"

/-- The program at a path. Everything else that is there may not be run. -/
def atPath (files : Files) (path : String) : Except SystemError String :=
  match files.locate path with
  | .error e => .error e
  | .ok (place, .file _) =>
    match place with
    | ["bin", name] => if programs.contains name then .ok name else .error .permissionDenied
    | ["usr", "bin", name] => if programs.contains name then .ok name else .error .permissionDenied
    | _ => .error .permissionDenied
  | .ok _ => .error .permissionDenied

/-- Tries directories in turn; a refusal is remembered while the search goes on. -/
def search (files : Files) (name : String) (refused : Bool) :
    List String → Except SystemError String
  | [] => .error (if refused then .permissionDenied else .notFound)
  | directory :: rest =>
    match atPath files (if directory.isEmpty then name else directory ++ "/" ++ name) with
    | .ok program => .ok program
    | .error .permissionDenied => search files name true rest
    | .error _ => search files name refused rest

/-- Finds a program: a name with a slash is a path, any other is searched for. -/
def find (files : Files) (searchPath name : String) : Except SystemError String :=
  if name.isEmpty then .error .notFound
  else if name.toList.contains '/' then atPath files name
  else if Files.maxComponent < name.utf8ByteSize then .error .nameTooLong
  else search files name false (Text.pieces ':' searchPath)

end Program

/-- How a shell was called. -/
structure Invocation where
  /-- The first operand is a script. -/
  scriptGiven : Bool
  /-- The script is read from standard input, whatever the operands are. -/
  fromInput : Bool
  exitOnError : Bool
  strict : Bool
  operands : List Octets

/-- Switches the shell's options that have an effect here. -/
def Invocation.switch (i : Invocation) (on : Bool) : Char → Invocation
  | 'c' => { i with scriptGiven := on }
  | 's' => { i with fromInput := on }
  | 'e' => { i with exitOnError := on }
  | 'u' => { i with strict := on }
  | _ => i

/-- Reads options up to the first operand. -/
def Invocation.read (i : Invocation) : List Octets → Invocation
  | [] => { i with operands := [] }
  | ['-'] :: l => { i with operands := l }
  | ['-', '-'] :: l => { i with operands := l }
  | ('-' :: letters) :: l => (letters.foldl (fun i c => i.switch true c) i).read l
  | ('+' :: letters) :: l => (letters.foldl (fun i c => i.switch false c) i).read l
  | l => { i with operands := l }

namespace Exec

/-- The shell as a whole process. -/
def shell (k : Runner) (zero : Octets) (args : List Octets) : Exec Unit := do
  let i := (Invocation.mk false false false false []).read args
  modify fun s => { s with zero := zero, exitOnError := i.exitOnError, strict := i.strict }
  match i.scriptGiven, i.operands with
  | true, [] => fatal "-c requires an argument".toList
  | true, script :: rest =>
    modify fun s => { s with zero := rest.headD zero, parameters := rest.drop 1, line := 1 }
    k.script script
  | false, [] => fromInput []
  | false, file :: rest =>
    if i.fromInput then fromInput (file :: rest)
    else match (← get).readPath file with
    | .ok script =>
      modify fun s => { s with zero := file, parameters := rest, line := 1 }
      k.script script
    | .error _ => fatal ("cannot open ".toList ++ file ++ ": No such file".toList)
where
  /-- Runs what stands on standard input. -/
  fromInput (parameters : List Octets) : Exec Unit := do
    let s ← get
    set { s with input := s.input.map fun _ => [], parameters := parameters, line := 1 }
    k.script (s.input.getD [])

/-- What a new program gets from the process that starts it. -/
def fresh (s : State) : State :=
  { s with
    bindings := s.bindings.filter fun v => s.exported.contains v.1
    parameters := []
    substituted := none
    processId := s.processId + 1
    traps := s.traps.filter fun t => t.2.isEmpty
    functions := []
    loops := 0
    guarded := false
    line := 0 }

/-- Runs a program as the whole process. -/
def program (k : Runner) (name : String) (zero : Octets) (args : List Octets) : Exec Unit := do
  if name = "sh" || name = "dash" then finish k (shell k zero args)
  else
    match Utility.find? name with
    | some utility => modify (utility args)
    | none => setStatus 127

/-- What a shell writes about a program that a signal killed. -/
def killedNotice (signal : Nat) : Octets :=
  match signal with
  | 1 => "Hangup\n".toList
  | 3 => "Quit\n".toList
  | 4 => "Illegal instruction\n".toList
  | 6 => "Aborted\n".toList
  | 8 => "Floating point exception\n".toList
  | 9 => "Killed\n".toList
  | 10 => "User defined signal 1\n".toList
  | 11 => "Segmentation fault\n".toList
  | 12 => "User defined signal 2\n".toList
  | 14 => "Alarm clock\n".toList
  | 15 => "Terminated\n".toList
  | _ => []

/-- Starts a program and waits for it. A signal that kills it shows in its status. -/
def start (k : Runner) (name : String) (zero : Octets) (args : List Octets) : Exec Unit :=
  ExceptT.mk fun s =>
    let (r, t) := (program k name zero args).run (fresh s)
    let joined := rejoin s t
    match r with
    | .error (.killed n) => (.ok (), (joined.printError (killedNotice n)).withStatus (128 + n))
    | .error .endless => (.error .endless, joined)
    | _ => (.ok (), joined)

/-- Finds a program under the name given in a script and starts it. -/
def external (k : Runner) (name : Octets) (args : List Octets) : Exec Unit := do
  let s ← get
  let searchPath := (Arithmetic.read s.bindings "PATH".toList).toName
  match Program.find s.files searchPath name.toName with
  | .ok program => start k program name args
  | .error .permissionDenied =>
    complain (name ++ ": Permission denied".toList)
    setStatus 126
  | .error _ =>
    complain (name ++ ": not found".toList)
    setStatus 127

end Exec

end HostProbe.Shell
