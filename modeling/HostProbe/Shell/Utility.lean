import HostProbe.Shell.Test
import HostProbe.Shell.Utility.Echo
import HostProbe.Shell.Utility.Files
import HostProbe.Shell.Utility.Grep

/-!
The utilities by name, with the small ones: waiting, translating, counting up, conditions.
-/

namespace HostProbe.Shell

namespace Utility

/-- The nanoseconds of a time interval: a decimal number, perhaps with a unit. -/
def duration? (l : Octets) : Option Nat :=
  let (l, unit) := match l.getLast? with
    | some 's' => (l.dropLast, 1)
    | some 'm' => (l.dropLast, 60)
    | some 'h' => (l.dropLast, 3600)
    | some 'd' => (l.dropLast, 86400)
    | _ => (l, 1)
  let (whole, rest) := l.span Char.isDigit
  let fraction := match rest with
    | '.' :: r => r
    | _ => []
  if (whole.isEmpty && fraction.isEmpty) || !(rest.isEmpty || rest.head? = some '.') ||
      !fraction.all Char.isDigit then none
  else
    let nanos := fraction.take 9 ++ List.replicate (9 - fraction.length) '0'
    some ((Text.Decimal.value whole * 1000000000 + Text.Decimal.value nanos) * unit)

def sleep : Utility := fun args s =>
  match args.find? fun a => (duration? a).isNone with
  | some a =>
    failWithHint "sleep" (Octets.ofText "invalid time interval ‘" ++ a ++ Octets.ofText "’") s
  | none =>
    if args.isEmpty then failWithHint "sleep" "missing operand".toList s
    else { s with clock := (args.filterMap duration?).foldl (· + ·) s.clock, status := 0 }

/-- The octets of a set: ranges and the usual escapes. -/
def octetSet : Octets → Octets
  | '\\' :: 'n' :: l => '\n' :: octetSet l
  | '\\' :: 't' :: l => '\t' :: octetSet l
  | '\\' :: 'r' :: l => '\r' :: octetSet l
  | '\\' :: '0' :: l => '\x00' :: octetSet l
  | '\\' :: c :: l => c :: octetSet l
  | a :: '-' :: b :: l =>
    ((List.range (b.toNat + 1 - a.toNat)).map fun i => Char.ofNat (a.toNat + i)) ++ octetSet l
  | c :: l => c :: octetSet l
  | [] => []

def translate : Utility := fun args s =>
  let (text, s) := takeInput s
  match args with
  | [option, set] =>
    if option = "-d".toList then
      let set := octetSet set
      (s.print (text.filter fun c => !set.contains c)).withStatus 0
    else if option = "-cd".toList || option = "-dc".toList then
      let set := octetSet set
      (s.print (text.filter fun c => set.contains c)).withStatus 0
    else
      let source := octetSet option
      let goal := octetSet set
      let change := fun c =>
        match source.idxOf? c with
        | some i => (goal[i]?.or goal.getLast?).getD c
        | none => c
      (s.print (text.map change)).withStatus 0
  | _ => fail "tr" 1 "missing operand".toList s

def seq : Utility := fun args s =>
  match args.mapM fun a => (Test.number a).toOption with
  | some [last] => numbers 1 1 last s
  | some [first, last] => numbers first 1 last s
  | some [first, step, last] => numbers first step last s
  | _ => fail "seq" 1 "invalid usage".toList s
where
  /-- Prints the numbers from first to last. -/
  numbers (first step last : Int) (s : State) : State :=
    let n := if step = 0 then 0 else ((last - first) / step + 1).toNat
    ((List.range (min n 100000)).foldl (fun s i =>
      s.print (Arithmetic.ofInt (first + step * i) ++ ['\n'])) s).withStatus 0

/-- Evaluates a condition; a complaint gives status two. -/
def testWith (complain : Octets → State → State) : Utility := fun args s =>
  match Test.eval s.files args with
  | .ok b => s.withStatus (if b then 0 else 1)
  | .error message => (complain message s).withStatus 2

/-- The bracket form of a condition needs its closing bracket. -/
def bracketWith (complain : Octets → State → State) : Utility := fun args s =>
  if args.getLast? = some [']'] then testWith complain args.dropLast s
  else (complain "missing ]".toList s).withStatus 2

/-- The utilities by name. -/
def find? (name : String) : Option Utility :=
  match name with
  | "true" => some fun _ s => s.withStatus 0
  | "false" => some fun _ s => s.withStatus 1
  | "cat" => some cat
  | "wc" => some wordCount
  | "grep" => some grep
  | "cmp" => some cmp
  | "sleep" => some sleep
  | "head" => some head
  | "tail" => some tail
  | "tr" => some translate
  | "seq" => some seq
  | "test" => some (testWith fun m s => fail "test" 2 m s)
  | "[" => some (bracketWith fun m s => fail "[" 2 m s)
  | "echo" => some (echoWith false)
  | "printf" => some printf
  | _ => none

end Utility

/-- The programs of the simulated machine, in its two directories for programs. -/
def programs : List String :=
  ["sh", "dash", "true", "false", "cat", "wc", "grep", "cmp", "sleep", "head", "tail", "tr", "seq",
    "test", "[", "echo", "printf"]

end HostProbe.Shell
