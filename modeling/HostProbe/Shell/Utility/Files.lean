import HostProbe.Shell.Utility.Basic

/-!
Utilities that copy, count, compare and cut files.
-/

namespace HostProbe.Shell.Utility

def cat : Utility := fun args s =>
  withTexts "cat" (args.filter fun a => a = ['-'] || a.head? ≠ some '-') s fun texts s =>
    texts.foldl (fun s (_, text) => s.print text) s

def countWords (text : Octets) : Nat :=
  (text.splitOnP fun c => c = ' ' || c = '\t' || c = '\n' || c = '\r').countP fun w => !w.isEmpty

/-- The chosen counts of a text, in their fixed order. -/
def counts (options : Octets) (text : Octets) : List Nat :=
  let options := if options.isEmpty then "lwc".toList else options
  (if options.contains 'l' then [text.count '\n'] else []) ++
  (if options.contains 'w' then [countWords text] else []) ++
  (if options.contains 'm' then [text.length] else []) ++
  (if options.contains 'c' then [text.length] else [])

/-- Counts lines, words and octets. -/
def countTexts (options : Octets) (paths : List Octets) (s : State) : State :=
  withTexts "wc" paths s fun texts s =>
    let total := texts.foldl (fun n (_, text) => n + text.length) 0
    let width := if options.length = 1 && texts.length = 1 then 0
      else if paths.isEmpty then 7
      else (Nat.toDigits 10 total).length
    let line (numbers : List Nat) (name : Octets) : Octets :=
      let padded := numbers.map fun n =>
        let digits := Nat.toDigits 10 n
        List.replicate (width - digits.length) ' ' ++ digits
      [' '].intercalate padded ++ name ++ ['\n']
    let rows := texts.map fun (path, text) => (counts options text, path)
    let s := rows.foldl (fun s (numbers, path) =>
      s.print (line numbers (if paths.isEmpty then [] else ' ' :: path))) s
    if texts.length ≤ 1 then s
    else
      let sums := rows.foldl (fun sums (numbers, _) => sums.zipWith (· + ·) numbers)
        (List.replicate ((rows.head?.map fun r => r.1.length).getD 0) 0)
      s.print (line sums " total".toList)

def wordCount : Utility := fun args s =>
  let (options, paths) := args.partition fun a => a.head? = some '-' && a ≠ ['-']
  let options := options.flatMap fun a => a.drop 1
  match options.find? fun c => !"lwcmL".toList.contains c with
  | some c => failWithHint "wc" ("invalid option -- '".toList ++ [c, '\'']) s
  | none => countTexts options paths s

/-- Compares two files octet by octet. -/
def cmp : Utility := fun args s =>
  let silent := args.any fun a => a = "-s".toList || a = "--silent".toList || a = "--quiet".toList
  let paths := args.filter fun a => a = ['-'] || a.head? ≠ some '-'
  let trouble (path : Octets) (e : SystemError) (s : State) : State :=
    if silent then s.withStatus 2 else fail "cmp" 2 (path ++ ": ".toList ++ systemMessage e) s
  let compare (a b : Octets) : State :=
    match readOperand a s with
    | .error e => trouble a e s
    | .ok (x, s) =>
      match readOperand b s with
      | .error e => trouble b e s
      | .ok (y, s) =>
        if x = y then s.withStatus 0
        else
          let same := ((x.zip y).takeWhile fun (c, d) => c = d).length
          let line := ((x.take same).count '\n') + 1
          if silent then s.withStatus 1
          else if same = x.length || same = y.length then
            fail "cmp" 1 ("EOF on ".toList ++ (if same = x.length then a else b) ++
              (if same = 0 then " which is empty".toList
              else " after byte ".toList ++ Nat.toDigits 10 same ++ ", line ".toList ++
                Nat.toDigits 10 line)) s
          else
            (s.print (a ++ [' '] ++ b ++ " differ: byte ".toList ++ Nat.toDigits 10 (same + 1) ++
              ", line ".toList ++ Nat.toDigits 10 line ++ ['\n'])).withStatus 1
  match paths with
  | [a, b] => compare a b
  | [a] => compare a ['-']
  | _ => fail "cmp" 2 "missing operand".toList s

/-- How much of a text the head and tail utilities take. -/
structure Extent where
  octets : Bool
  count : Nat
  fromStart : Bool

def extent (e : Extent) : List Octets → Option (Extent × List Octets)
  | [] => some (e, [])
  | ('-' :: 'c' :: r) :: l => counted { e with octets := true } r l
  | ('-' :: 'n' :: r) :: l => counted { e with octets := false } r l
  | ('-' :: c :: r) :: l =>
    if c.isDigit then (Text.Decimal.digits? (c :: r)).map fun n =>
      ({ e with octets := false, count := n }, l)
    else none
  | l => some (e, l)
where
  /-- The count, in the same operand or in the next. -/
  counted (e : Extent) (r : Octets) (l : List Octets) : Option (Extent × List Octets) :=
    let (text, l) := if r.isEmpty then (l.headD [], l.drop 1) else (r, l)
    let (fromStart, digits) := match text with
      | '+' :: d => (true, d)
      | d => (false, d)
    (Text.Decimal.digits? digits).map fun n => ({ e with count := n, fromStart := fromStart }, l)

/-- Lines that keep their line ends. -/
def keptLines (text : Octets) : List Octets :=
  let l := text.splitOn '\n'
  (l.dropLast.map (· ++ ['\n'])) ++ (l.getLast?.toList.filter fun x => !x.isEmpty)

def head : Utility := fun args s =>
  match extent ⟨false, 10, false⟩ args with
  | none => fail "head" 1 "invalid usage".toList s
  | some (e, paths) =>
    withTexts "head" paths s fun texts s =>
      texts.foldl (fun s (_, text) =>
        s.print (if e.octets then text.take e.count else ((keptLines text).take e.count).flatten)) s

def tail : Utility := fun args s =>
  match extent ⟨false, 10, false⟩ args with
  | none => fail "tail" 1 "invalid usage".toList s
  | some (e, paths) =>
    withTexts "tail" paths s fun texts s =>
      texts.foldl (fun s (_, text) =>
        let pick {α : Type} (l : List α) : List α :=
          if e.fromStart then l.drop (e.count - 1) else l.drop (l.length - e.count)
        s.print (if e.octets then pick text else (pick (keptLines text)).flatten)) s

end HostProbe.Shell.Utility
