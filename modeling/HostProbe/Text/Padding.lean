/-!
Filler text of an exact length: the seed is doubled until it is long enough and then cut.
Lengths count characters.
-/

namespace HostProbe.Text

/-- Doubles a non-empty text until it has at least `len` characters. -/
def grow (len : Nat) (text : List Char) : List Char :=
  if text.length < len ∧ text ≠ [] then grow len (text ++ text) else text
termination_by len - text.length
decreasing_by
  rename_i h
  have := List.length_pos_iff.mpr h.2
  simp only [List.length_append]
  omega

/-- The text of `len` characters that repeats `seed`; an empty seed gives an empty text. -/
def padding (seed : String) (len : Nat) : String :=
  String.ofList ((grow len seed.toList).take len)

end HostProbe.Text
