import HostProbe.Proofs.Decimal
import HostProbe.Proofs.JsonGrammar
import HostProbe.Scenario.Outcome

/-!
Displayed outcomes can be read back. So different outcomes have different texts: no list looks like
a number, and lists of different lengths or members look different.
-/

namespace HostProbe.Outcome

open Text.Decimal

/-- Reads what stands between the brackets of a list. Numbers are separated by a comma and a blank;
with a blank in front, all of them follow one. -/
def lengths? (inner : List Char) : Option (List Nat) :=
  if inner = [] then some []
  else ((' ' :: inner).splitOn ',').mapM fun piece => digits? piece.tail

/-- Reads a displayed outcome. -/
def ofChars? : List Char → Option Outcome
  | '[' :: l => (lengths? l.dropLast).map .lengths
  | l => if l = "undefined".toList then some .absent else (integer? l).map .int

theorem cons_intercalate {α : Type} (x y : α) (a : List α) (l : List (List α)) :
    y :: [x, y].intercalate (a :: l) = [x].intercalate ((a :: l).map (y :: ·)) := by
  induction l generalizing a with
  | nil => simp
  | cons b l ih =>
    have hrest := ih b
    simp only [List.map_cons, List.intercalate_cons_cons] at hrest ⊢
    rw [← hrest]
    simp

theorem mem_of_mem_intercalate {α : Type} {c : α} {separator : List α} {pieces : List (List α)}
    (h : c ∈ separator.intercalate pieces) : c ∈ separator ∨ ∃ piece ∈ pieces, c ∈ piece := by
  induction pieces with
  | nil => exact absurd h List.not_mem_nil
  | cons piece pieces ih =>
    cases pieces with
    | nil => exact Or.inr ⟨piece, List.mem_singleton_self piece, by simpa using h⟩
    | cons next pieces =>
      simp only [List.intercalate_cons_cons, List.mem_append] at h
      rcases h with (h | h) | h
      · exact Or.inr ⟨piece, List.mem_cons_self, h⟩
      · exact Or.inl h
      · rcases ih h with h | ⟨other, hother, h⟩
        · exact Or.inl h
        · exact Or.inr ⟨other, List.mem_cons_of_mem piece hother, h⟩

theorem comma_not_mem_piece {n : Nat} : ',' ∉ ' ' :: Nat.toDigits 10 n := by
  intro h
  rcases List.mem_cons.mp h with h | h
  · cases h
  · exact absurd (isDigit_of_mem_toDigits h) (by decide)

theorem lengths?_intercalate (l : List Nat) :
    lengths? ([',', ' '].intercalate (l.map (Nat.toDigits 10))) = some l := by
  cases l with
  | nil => rfl
  | cons n l =>
    have hne : [',', ' '].intercalate ((n :: l).map (Nat.toDigits 10)) ≠ [] := by
      cases l <;> simp [Nat.toDigits_ne_nil]
    have hpieces : (' ' :: [',', ' '].intercalate ((n :: l).map (Nat.toDigits 10))).splitOn ',' =
        (n :: l).map fun n => ' ' :: Nat.toDigits 10 n := by
      rw [List.map_cons, cons_intercalate, ← List.map_cons, List.map_map]
      apply List.splitOn_intercalate
      · intro piece hpiece
        obtain ⟨m, -, rfl⟩ := List.mem_map.mp hpiece
        exact comma_not_mem_piece
      · simp
    rw [lengths?, if_neg hne, hpieces]
    apply Json.mapM_map_of_inverse
    intro m _
    exact digits?_toDigits m

theorem toList_display_lengths (l : List Nat) : (display (.lengths l)).toList =
    '[' :: ([',', ' '].intercalate (l.map (Nat.toDigits 10)) ++ [']']) := by
  have hdigits : (l.map ofNat).map String.toList = l.map (Nat.toDigits 10) := by simp
  simp only [display, String.toList_append, String.toList_intercalate, hdigits]
  rfl

theorem ofChars?_display (o : Outcome) : ofChars? o.display.toList = some o := by
  cases o with
  | absent => decide
  | int n =>
    have hread := integer?_ofInt n
    have hbracket : ∀ l, (ofInt n).toList = '[' :: l → False := by
      intro l hl
      rw [hl] at hread
      simp [integer?, digits?] at hread
    have hword : (ofInt n).toList ≠ "undefined".toList := by
      intro hl
      have hnone : integer? "undefined".toList = none := by decide
      rw [hl, hnone] at hread
      cases hread
    rw [display, ofChars?.eq_2 _ hbracket, if_neg hword, hread, Option.map_some]
  | lengths l =>
    rw [toList_display_lengths, ofChars?, List.dropLast_concat, lengths?_intercalate,
      Option.map_some]

/-- Besides digits a displayed outcome has signs, brackets, separators and one word. -/
theorem not_mem_display {c : Char} (h : c.isDigit = false) (hother : c ∉ "-[, ]undefined".toList)
    (o : Outcome) : c ∉ o.display.toList := by
  cases o with
  | int n =>
    have hminus : c ≠ '-' := fun he => hother (he ▸ by decide)
    exact not_mem_ofInt h hminus n
  | absent => exact fun hmem => hother (List.mem_append_right "-[, ]".toList hmem)
  | lengths l =>
    intro hmem
    rw [toList_display_lengths, List.mem_cons, List.mem_append, List.mem_singleton] at hmem
    rcases hmem with rfl | hmem | rfl
    · exact hother (by decide)
    · rcases mem_of_mem_intercalate hmem with hmem | ⟨digits, hdigits, hmem⟩
      · have hseparator : [',', ' '] ⊆ "-[, ]undefined".toList := by decide
        exact hother (hseparator hmem)
      · obtain ⟨n, -, rfl⟩ := List.mem_map.mp hdigits
        exact Bool.false_ne_true (h.symm.trans (isDigit_of_mem_toDigits hmem))
    · exact hother (by decide)

theorem display_inj {o o' : Outcome} : o.display = o'.display ↔ o = o' := by
  constructor
  · intro h
    apply Option.some.inj
    rw [← ofChars?_display o, h, ofChars?_display]
  · rintro rfl
    rfl

end HostProbe.Outcome
