import HostProbe.Shell.Arithmetic
import HostProbe.Shell.Utility.Basic

/-!
Utilities that print their operands: as they are, or laid out by a format.
-/

namespace HostProbe.Shell.Utility

/-- Reads up to `n` octal digits. -/
def takeOctal : Nat → Nat → Octets → Char × Octets
  | n + 1, value, c :: l =>
    if '0' ≤ c && c ≤ '7' then takeOctal n (8 * value + (c.toNat - '0'.toNat)) l
    else (Char.ofNat (value % 256), c :: l)
  | _, value, l => (Char.ofNat (value % 256), l)

/-- Puts octets in the place of octal escapes: a backslash, `lead` and up to three digits. -/
def expandOctal (lead : Octets) : Nat → Octets → Octets
  | 0, l => l
  | _, [] => []
  | n + 1, '\\' :: l =>
    if lead.isPrefixOf l && ((l.drop lead.length).head?.any fun c => '0' ≤ c && c ≤ '7') then
      let (c, rest) := takeOctal 3 0 (l.drop lead.length)
      c :: expandOctal lead n rest
    else
      match l with
      | [] => ['\\']
      | c :: rest => '\\' :: c :: expandOctal lead n rest
  | n + 1, c :: l => c :: expandOctal lead n l

/-- Expands backslash escapes of `echo` and `printf`; the flag tells whether output stops. -/
def unescape : Octets → Octets × Bool
  | '\\' :: 'n' :: l => add '\n' (unescape l)
  | '\\' :: 't' :: l => add '\t' (unescape l)
  | '\\' :: 'r' :: l => add '\r' (unescape l)
  | '\\' :: 'a' :: l => add '\x07' (unescape l)
  | '\\' :: 'b' :: l => add '\x08' (unescape l)
  | '\\' :: 'f' :: l => add '\x0c' (unescape l)
  | '\\' :: 'v' :: l => add '\x0b' (unescape l)
  | '\\' :: '\\' :: l => add '\\' (unescape l)
  | '\\' :: 'c' :: _ => ([], true)
  | c :: l => add c (unescape l)
  | [] => ([], false)
where
  add (c : Char) (r : Octets × Bool) : Octets × Bool := (c :: r.1, r.2)

def echoWith (escapes : Bool) : Utility := fun args s =>
  let (newline, args) := match args with
    | ['-', 'n'] :: l => ([], l)
    | l => (['\n'], l)
  let text := [' '].intercalate args
  let octal := expandOctal [] text.length (expandOctal ['0'] text.length text)
  let (text, stopped) := if escapes then unescape octal else (text, false)
  (s.print (if stopped then text else text ++ newline)).withStatus 0

/-- How a converted operand is laid out. -/
structure Conversion where
  left : Bool
  zeros : Bool
  width : Nat
  precision : Option Nat

/-- Reads flags, width and precision of a conversion. -/
def takeConversion (l : Octets) : Conversion × Octets :=
  let (flags, l) := l.span fun c => c = '-' || c = '0' || c = '+' || c = ' ' || c = '#'
  let (width, l) := l.span Char.isDigit
  let (precision, l) := match l with
    | '.' :: r =>
      let (digits, r) := r.span Char.isDigit
      (some (Text.Decimal.value digits), r)
    | _ => (none, l)
  (⟨flags.contains '-', flags.contains '0', Text.Decimal.value width, precision⟩, l)

def Conversion.pad (f : Conversion) (numeric : Bool) (text : Octets) : Octets :=
  let text := if numeric then text else text.take (f.precision.getD text.length)
  let missing := f.width - text.length
  if f.left then text ++ List.replicate missing ' '
  else if numeric && f.zeros then List.replicate missing '0' ++ text
  else List.replicate missing ' ' ++ text

/-- Converts an operand. -/
def Conversion.convert (f : Conversion) (letter : Char) (arg : Octets) : Octets :=
  let number := (Arithmetic.integer? arg).getD 0
  match letter with
  | 'd' | 'i' | 'u' => f.pad true (Arithmetic.ofInt number)
  | 'x' => f.pad true (Nat.toDigits 16 number.toNat)
  | 'o' => f.pad true (Nat.toDigits 8 number.toNat)
  | 'c' => f.pad false (arg.take 1)
  | 'b' => f.pad false (unescape (expandOctal ['0'] arg.length arg)).1
  | _ => f.pad false arg

/-- One pass over a format; gives the operands that are left. -/
def formatOnce : Nat → Octets → List Octets → Octets × List Octets
  | 0, _, args => ([], args)
  | _, [], args => ([], args)
  | n + 1, '%' :: '%' :: l, args => add ['%'] (formatOnce n l args)
  | n + 1, '%' :: l, args =>
    match takeConversion l with
    | (_, []) => (['%'], args)
    | (f, c :: l) => add (f.convert c (args.headD [])) (formatOnce n l (args.drop 1))
  | n + 1, '\\' :: c :: l, args => add (unescape ['\\', c]).1 (formatOnce n l args)
  | n + 1, c :: l, args => add [c] (formatOnce n l args)
where
  add (text : Octets) (r : Octets × List Octets) : Octets × List Octets := (text ++ r.1, r.2)

/-- Uses the format again while operands are left. -/
def formatAll (format : Octets) : Nat → List Octets → Octets
  | 0, _ => []
  | n + 1, args =>
    let (text, rest) := formatOnce (format.length + 1) format args
    if rest.isEmpty || rest.length = args.length then text else text ++ formatAll format n rest

def printf : Utility := fun args s =>
  match args with
  | [] => fail "printf" 2 "usage: printf format [arg ...]".toList s
  | format :: l =>
    (s.print (formatAll (expandOctal [] format.length format) (l.length + 1) l)).withStatus 0

end HostProbe.Shell.Utility
