import HostProbe.Shell.Expansion

/-!
Redirections. Each moves one descriptor of the process; the first that fails stops the command.
-/

namespace HostProbe.Shell

/-- The path of the directory in which a path's last component stands. -/
def parentPath (path : Octets) : Octets :=
  match path.reverse.dropWhile (· ≠ '/') with
  | [] => ['.']
  | l => l.reverse

namespace Exec

/-- What a failed opening is reported with. -/
def openFailure (verb path reason : Octets) : Octets :=
  "cannot ".toList ++ verb ++ [' '] ++ path ++ ": ".toList ++ reason

/-- The sink for a path. A file is created or, unless text is appended, emptied. -/
def openSink (append : Bool) (path : Octets) : Exec (Except Octets Sink) := do
  let s ← get
  if path = "/dev/null".toList then pure (.ok .null)
  else if path = "/dev/stderr".toList then pure (.ok s.err)
  else if path = "/dev/stdout".toList then pure (.ok s.out)
  else
    match s.files.resolve path.toName with
    | .ok .directory => pure (.error (openFailure "create".toList path "Is a directory".toList))
    | .ok (.device _) => pure (.ok .null)
    | .ok (.file _) =>
      if !append then set (s.store path [])
      pure (.ok (.file path))
    | .error _ =>
      match s.files.resolve (parentPath path).toName with
      | .ok .directory =>
        if path.isEmpty then
          pure (.error (openFailure "create".toList path "Directory nonexistent".toList))
        else
          set (s.store path [])
          pure (.ok (.file path))
      | _ => pure (.error (openFailure "create".toList path "Directory nonexistent".toList))

/-- Moves a descriptor that is written to. Only the first two have a meaning here. -/
def moveSink (descriptor : Nat) (sink : Sink) : Exec Unit :=
  match descriptor with
  | 1 => modify fun s => { s with out := sink }
  | 2 => modify fun s => { s with err := sink }
  | _ => pure ()

/-- Applies one redirection; tells whether it moved standard input. -/
def redirect (k : Runner) : Redirect → Exec (Except Octets Bool)
  | .mk descriptor kind word => do
    let path ← text k word
    let s ← get
    match kind with
    | .input =>
      match s.readPath path with
      | .ok contents =>
        if descriptor = 0 then set { s with input := some contents }
        pure (.ok (descriptor = 0))
      | .error .isDirectory =>
        if descriptor = 0 then set { s with input := none }
        pure (.ok (descriptor = 0))
      | .error _ => pure (.error (openFailure "open".toList path "No such file".toList))
    | .output =>
      match ← openSink false path with
      | .ok sink => moveSink descriptor sink; pure (.ok false)
      | .error e => pure (.error e)
    | .append =>
      match ← openSink true path with
      | .ok sink => moveSink descriptor sink; pure (.ok false)
      | .error e => pure (.error e)
    | .copyInput =>
      if path = ['-'] && descriptor = 0 then
        set { s with input := none }
        pure (.ok true)
      else pure (.ok false)
    | .copyOutput =>
      let sink := match path with
        | ['1'] => s.out
        | ['2'] => s.err
        | ['-'] => .closed
        | _ => .null
      moveSink descriptor sink
      pure (.ok false)

/-- Applies redirections from the left. -/
def redirectAll (k : Runner) : List Redirect → Exec (Except Octets Bool)
  | [] => pure (.ok false)
  | r :: rest => do
    match ← redirect k r with
    | .error e => pure (.error e)
    | .ok here =>
      match ← redirectAll k rest with
      | .error e => pure (.error e)
      | .ok later => pure (.ok (here || later))

/-- Runs a computation under redirections. When one fails the computation is left out, and the
shell ends if the command is one of its own special ones. -/
def redirected (k : Runner) (special : Bool) (redirects : List Redirect) (body : Exec Unit) :
    Exec Unit := do
  let before := descriptors (← get)
  match ← redirectAll k redirects with
  | .ok inputMoved => withDescriptors before inputMoved body
  | .error message =>
    withDescriptors before true (complain message)
    setStatus 2
    if special then throw .exit

end Exec

end HostProbe.Shell
