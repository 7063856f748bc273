import HostProbe.Text.Blank
import Mathlib.Data.List.DropRight
import Mathlib.Data.List.TakeWhile

/-!
Trimming. Only blanks at the ends go away: a character that is not blank stays with all that stands
on its inner side, and blanks added around a trimmed text change nothing.
-/

namespace HostProbe.Text

/-- No blank at either end. -/
structure Trimmed (l : List Char) : Prop where
  head : ∀ c, l.head? = some c → isBlank c = false
  last : ∀ c, l.getLast? = some c → isBlank c = false

theorem trimmed_iff {l : List Char} : Trimmed l ↔
    l.head?.all (fun c => !isBlank c) = true ∧ l.getLast?.all (fun c => !isBlank c) = true := by
  simp only [Option.all_eq_true, Bool.not_eq_true']
  exact ⟨fun h => ⟨h.head, h.last⟩, fun h => ⟨h.1, h.2⟩⟩

instance (l : List Char) : Decidable (Trimmed l) := decidable_of_iff' _ trimmed_iff

theorem dropWhile_eq_self_of_head? {α : Type} {p : α → Bool} {l : List α}
    (h : ∀ c, l.head? = some c → p c = false) : l.dropWhile p = l := by
  cases l with
  | nil => rfl
  | cons c l => rw [List.dropWhile_cons_of_neg (by simp [h c rfl])]

theorem dropWhile_append_cons {α : Type} {p : α → Bool} {c : α} (hc : p c = false)
    (x y : List α) : (x ++ c :: y).dropWhile p = x.dropWhile p ++ c :: y := by
  have hstop : (c :: y).dropWhile p = c :: y := List.dropWhile_cons_of_neg (by simp [hc])
  rw [List.dropWhile_append, hstop]
  split
  · next hempty => rw [List.isEmpty_iff.mp hempty, List.nil_append]
  · rfl

theorem dropTrailing_append_cons {α : Type} {p : α → Bool} {c : α} (hc : p c = false)
    (x y : List α) : dropTrailing p (x ++ c :: y) = x ++ c :: dropTrailing p y := by
  have hreverse : (x ++ c :: y).reverse = y.reverse ++ c :: x.reverse := by simp
  rw [dropTrailing, hreverse, dropWhile_append_cons hc]
  simp [dropTrailing]

/-- What is dropped at the end satisfies the predicate. -/
theorem exists_eq_dropTrailing_append {α : Type} (p : α → Bool) (l : List α) :
    ∃ t, l = dropTrailing p l ++ t ∧ ∀ x ∈ t, p x = true := by
  refine ⟨(l.reverse.takeWhile p).reverse, ?_, ?_⟩
  · rw [dropTrailing, ← List.reverse_append, List.takeWhile_append_dropWhile, List.reverse_reverse]
  · intro x hx
    exact List.mem_takeWhile_imp (List.mem_reverse.mp hx)

theorem trimChars_append_cons {c : Char} (hc : isBlank c = false) (x y : List Char) :
    trimChars (x ++ c :: y) = x.dropWhile isBlank ++ c :: dropTrailing isBlank y := by
  rw [trimChars, dropWhile_append_cons hc, dropTrailing_append_cons hc]

theorem trimChars_append_blanks (l : List Char) {t : List Char} (h : ∀ c ∈ t, isBlank c = true) :
    trimChars (l ++ t) = trimChars l := by
  rw [trimChars, trimChars, List.dropWhile_append]
  split
  · next hempty => rw [List.isEmpty_iff.mp hempty, List.dropWhile_eq_nil_iff.mpr h]
  · exact dropTrailing_append_of_all _ t h

theorem trimChars_dropWhile (l : List Char) : trimChars (l.dropWhile isBlank) = trimChars l := by
  rw [trimChars, trimChars, List.dropWhile_idempotent]

theorem trimChars_dropTrailing (l : List Char) :
    trimChars (dropTrailing isBlank l) = trimChars l := by
  obtain ⟨t, hl, ht⟩ := exists_eq_dropTrailing_append isBlank l
  conv => rhs; rw [hl, trimChars_append_blanks _ ht]

theorem Trimmed.trimChars_eq {l : List Char} (h : Trimmed l) : trimChars l = l := by
  have hlast : l.reverse.dropWhile isBlank = l.reverse := by
    apply dropWhile_eq_self_of_head?
    intro c hc
    exact h.last c (by rwa [List.head?_reverse] at hc)
  rw [trimChars, dropWhile_eq_self_of_head? h.head, dropTrailing, hlast, List.reverse_reverse]

theorem Trimmed.trimChars_between {l a b : List Char} (h : Trimmed l)
    (ha : ∀ c ∈ a, isBlank c = true) (hb : ∀ c ∈ b, isBlank c = true) :
    trimChars (a ++ l ++ b) = l := by
  rw [trimChars_append_blanks _ hb, trimChars, List.dropWhile_append_of_pos ha]
  exact h.trimChars_eq

theorem mem_of_mem_trimChars {l : List Char} {c : Char} (h : c ∈ trimChars l) : c ∈ l := by
  have hdropped : c ∈ l.dropWhile isBlank := by
    have hrest := (List.dropWhile_suffix isBlank).mem (List.mem_reverse.mp h)
    exact List.mem_reverse.mp hrest
  exact (List.dropWhile_suffix isBlank).mem hdropped

end HostProbe.Text
