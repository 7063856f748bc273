/-!
Blank characters and trimming. A character is blank when it has the Unicode property
White_Space; characters that only look empty (U+200B, U+FEFF, U+180E) are not blank.
-/

namespace HostProbe.Text

/-- The twenty-five code points with the property White_Space. -/
def isBlank (c : Char) : Bool :=
  let n := c.toNat
  (0x09 ≤ n && n ≤ 0x0D) || n == 0x20 || n == 0x85 || n == 0xA0 || n == 0x1680 ||
    (0x2000 ≤ n && n ≤ 0x200A) || n == 0x2028 || n == 0x2029 || n == 0x202F ||
    n == 0x205F || n == 0x3000

/-- Removes the longest suffix whose characters all satisfy `p`. -/
def dropTrailing {α : Type} (p : α → Bool) (l : List α) : List α :=
  (l.reverse.dropWhile p).reverse

/-- Removes blank characters at both ends. -/
def trimChars (l : List Char) : List Char :=
  dropTrailing isBlank (l.dropWhile isBlank)

def trim (s : String) : String := String.ofList (trimChars s.toList)

/-- Whether a text has no character that is not blank. -/
def allBlank (s : String) : Bool := s.toList.all isBlank

/-- ASCII capitals become small letters, every other character stays. -/
def asciiLower (s : String) : String := s.map Char.toLower

theorem dropTrailing_append_of_all {α : Type} {p : α → Bool} (l t : List α)
    (h : ∀ x ∈ t, p x = true) : dropTrailing p (l ++ t) = dropTrailing p l := by
  have hr : ∀ x ∈ t.reverse, p x = true := fun x hx => h x (List.mem_reverse.mp hx)
  simp [dropTrailing, List.reverse_append, List.dropWhile_append_of_pos hr]

end HostProbe.Text
