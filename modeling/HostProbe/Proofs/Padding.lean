import HostProbe.Text.Padding
import Mathlib.Logic.Function.Iterate

/-!
Padding by doubling. Each doubling keeps the text a repetition of the seed, so the place of a
character in the grown text, counted modulo the length of the seed, says which character of the
seed it is; cutting to length changes no place. The doubling stops because a text that is not
empty gets longer by it.
-/

namespace HostProbe.Text

def twice (text : List Char) : List Char := text ++ text

theorem getElem?_twice (text : List Char) {i : Nat} (h : i < 2 * text.length) :
    (twice text)[i]? = text[i % text.length]? := by
  rw [twice]
  by_cases hi : i < text.length
  · rw [List.getElem?_append_left hi, Nat.mod_eq_of_lt hi]
  · have hle : text.length ≤ i := Nat.le_of_not_lt hi
    rw [List.getElem?_append_right hle, Nat.mod_eq_sub_mod hle, Nat.mod_eq_of_lt (by omega)]

theorem getElem?_grow (len : Nat) (text : List Char) {i : Nat} (h : i < (grow len text).length) :
    (grow len text)[i]? = text[i % text.length]? := by
  fun_induction grow len text with
  | case1 text hs ih =>
    have hpos : 0 < text.length := List.length_pos_iff.mpr hs.2
    have hdouble : (text ++ text).length = 2 * text.length := by
      rw [List.length_append, Nat.two_mul]
    have hplace : i % (2 * text.length) < 2 * text.length := Nat.mod_lt i (by omega)
    -- the place modulo the doubled length keeps its remainder modulo the old one
    rw [ih h, hdouble]
    refine (getElem?_twice text hplace).trans ?_
    rw [Nat.mod_mul_left_mod]
  | case2 text hs => rw [Nat.mod_eq_of_lt h]

/-- The loop stops: it doubles while the text is too short and a finite number of times. -/
theorem grow_eq_iterate_twice (len : Nat) (text : List Char) (h : text ≠ []) :
    ∃ k, grow len text = twice^[k] text ∧ len ≤ (twice^[k] text).length ∧
      ∀ j < k, (twice^[j] text).length < len := by
  fun_induction grow len text with
  | case1 text hs ih =>
    obtain ⟨k, hgrow, hlong, hshort⟩ := ih (by simpa using h)
    refine ⟨k + 1, hgrow, hlong, ?_⟩
    intro j hj
    cases j with
    | zero => exact hs.1
    | succ j => exact hshort j (Nat.lt_of_succ_lt_succ hj)
  | case2 text hs =>
    refine ⟨0, rfl, Nat.le_of_not_lt fun hlt => hs ⟨hlt, h⟩, ?_⟩
    intro j hj
    exact absurd hj (Nat.not_lt_zero j)

theorem le_length_grow (len : Nat) (text : List Char) (h : text ≠ []) :
    len ≤ (grow len text).length := by
  obtain ⟨k, hgrow, hlong, _⟩ := grow_eq_iterate_twice len text h
  rw [hgrow]
  exact hlong

theorem toList_padding (seed : String) (len : Nat) :
    (padding seed len).toList = (grow len seed.toList).take len := by
  rw [padding, String.toList_ofList]

theorem length_padding {seed : String} (h : seed ≠ "") (len : Nat) :
    (padding seed len).length = len := by
  have hseed : seed.toList ≠ [] := by simpa using h
  rw [← String.length_toList, toList_padding, List.length_take]
  exact Nat.min_eq_left (le_length_grow len seed.toList hseed)

theorem getElem?_padding {seed : String} (h : seed ≠ "") {len i : Nat} (hi : i < len) :
    (padding seed len).toList[i]? = seed.toList[i % seed.length]? := by
  have hseed : seed.toList ≠ [] := by simpa using h
  have hlen := le_length_grow len seed.toList hseed
  rw [toList_padding, List.getElem?_take_of_lt hi, getElem?_grow len seed.toList (by omega),
    String.length_toList]

theorem padding_empty (len : Nat) : padding "" len = "" := by
  have hgrow : grow len [] = [] := by simp [grow]
  rw [padding, String.toList_empty, hgrow, List.take_nil, String.ofList_nil]

theorem padding_zero (seed : String) : padding seed 0 = "" := by
  rw [padding, List.take_zero, String.ofList_nil]

theorem padding_isPrefix (seed : String) {a b : Nat} (h : a ≤ b) :
    (padding seed a).toList <+: (padding seed b).toList := by
  by_cases hseed : seed = ""
  · simp [hseed, padding_empty]
  · apply List.prefix_iff_getElem?.mpr
    intro i hi
    rw [String.length_toList, length_padding hseed] at hi
    rw [getElem?_padding hseed (Nat.lt_of_lt_of_le hi h), ← getElem?_padding hseed hi,
      List.getElem?_eq_getElem]

theorem padding_singleton (c : Char) (len : Nat) :
    padding (String.singleton c) len = String.ofList (List.replicate len c) := by
  have hseed : String.singleton c ≠ "" := by simp
  apply String.toList_injective
  rw [String.toList_ofList]
  apply List.eq_replicate_iff.mpr
  constructor
  · rw [String.length_toList, length_padding hseed]
  · intro d hd
    obtain ⟨i, hi, hget⟩ := List.getElem_of_mem hd
    have hlen : i < len := by rwa [String.length_toList, length_padding hseed] at hi
    have hplace := getElem?_padding hseed hlen
    rw [List.getElem?_eq_getElem hi, hget] at hplace
    simpa [Nat.mod_one] using hplace

/-- Padding a seed that is not empty takes finitely many doublings and gives a text of the asked
length in which the seed repeats, cut anywhere; so a shorter padding begins every longer one. -/
theorem padding_repeats_seed (seed : String) (len : Nat) :
    (seed ≠ "" →
      (∃ k, grow len seed.toList = twice^[k] seed.toList ∧
        len ≤ (twice^[k] seed.toList).length ∧
        ∀ j < k, (twice^[j] seed.toList).length < len) ∧
      (padding seed len).length = len ∧
      ∀ i < len, (padding seed len).toList[i]? = seed.toList[i % seed.length]?) ∧
    padding "" len = "" ∧ padding seed 0 = "" ∧
    ∀ a b, a ≤ b → (padding seed a).toList <+: (padding seed b).toList := by
  refine ⟨?_, padding_empty len, padding_zero seed, fun a b => padding_isPrefix seed⟩
  intro h
  refine ⟨?_, length_padding h len, fun i => getElem?_padding h⟩
  exact grow_eq_iterate_twice len seed.toList (by simpa using h)

/-- A seed with characters of two and three octets, cut inside its third repetition. -/
theorem padding_repeats_seed_cut :
    "жa€" ≠ "" ∧ (padding "жa€" 8).length = 8 ∧ (padding "жa€" 8).toList[7]? = some 'a' ∧
      (padding "жa€" 2).toList <+: (padding "жa€" 8).toList := by
  have hseed : "жa€" ≠ "" := by decide
  obtain ⟨hrepeats, _, _, hprefix⟩ := padding_repeats_seed "жa€" 8
  obtain ⟨_, hlength, hplace⟩ := hrepeats hseed
  exact ⟨hseed, hlength, hplace 7 (by decide), hprefix 2 8 (by decide)⟩

end HostProbe.Text
