/-!
Decimal text of natural numbers and integers, and the reader for unsigned 64-bit words.
-/

namespace HostProbe.Text.Decimal

/-- Decimal digits, without leading zeros. -/
def ofNat (n : Nat) : String := String.ofList (Nat.toDigits 10 n)

/-- A negative number is a minus sign before the digits of its magnitude. -/
def ofInt : Int → String
  | .ofNat n => ofNat n
  | .negSucc n => "-" ++ ofNat (n + 1)

/-- Value of a list of digits, most significant first. -/
def value (digits : List Char) : Nat :=
  digits.foldl (fun n c => 10 * n + (c.toNat - '0'.toNat)) 0

/-- Reads a non-empty run of ASCII digits that covers the whole text. -/
def digits? (l : List Char) : Option Nat :=
  if l ≠ [] ∧ l.all Char.isDigit then some (value l) else none

/-- One more than the largest unsigned word of 64 bits. -/
def wordBound : Nat := 18446744073709551616

def inWord (n : Nat) : Option Nat := if n < wordBound then some n else none

/-- An unsigned word: at most one plus sign, then digits (leading zeros allowed), below 2^64. -/
def word? (s : String) : Option Nat :=
  match s.toList with
  | '+' :: l => (digits? l).bind inWord
  | l => (digits? l).bind inWord

end HostProbe.Text.Decimal
