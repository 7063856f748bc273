import HostProbe.Command.Template
import Mathlib.Data.List.Infix

/-!
Expanding a template is a simultaneous substitution, although the two placeholders are replaced
one after the other. The path is put in first. It begins and ends with characters that no
placeholder has, so no placeholder reaches over a seam, and it holds no text placeholder itself;
hence the second replacement meets the text placeholders of the template and no others. The script
is put in last and nothing looks at it again.
-/

namespace HostProbe

namespace Text

variable {block new : List Char}

theorem replaceAfter_eq_drop (block new : List Char) (skip : Nat) (l : List Char) :
    replaceAfter block new skip l = replaceAfter block new 0 (l.drop skip) := by
  induction skip generalizing l with
  | zero => rfl
  | succ skip ih =>
    cases l with
    | nil => rfl
    | cons c l => exact ih l

theorem replaceAfter_block (h : block ≠ []) (rest : List Char) :
    replaceAfter block new 0 (block ++ rest) = new ++ replaceAfter block new 0 rest := by
  cases block with
  | nil => exact absurd rfl h
  | cons c block =>
    have hfront : (c :: block).isPrefixOf (c :: (block ++ rest)) = true :=
      List.isPrefixOf_iff_prefix.mpr (List.prefix_append (c :: block) rest)
    rw [List.cons_append, replaceAfter, if_pos hfront, replaceAfter_eq_drop, List.length_cons,
      Nat.add_sub_cancel, List.drop_left]

theorem replaceAfter_cons {c : Char} {l : List Char} (h : ¬ block <+: c :: l) :
    replaceAfter block new 0 (c :: l) = c :: replaceAfter block new 0 l := by
  rw [replaceAfter, if_neg fun hfront => h (List.isPrefixOf_iff_prefix.mp hfront)]

/-- Text in which no block starts, not even one that ends behind it, is passed over. -/
theorem replaceAfter_append {passed rest : List Char}
    (h : ∀ s, s ≠ [] → s <:+ passed → ¬ block <+: s ++ rest) :
    replaceAfter block new 0 (passed ++ rest) = passed ++ replaceAfter block new 0 rest := by
  induction passed with
  | nil => rfl
  | cons c passed ih =>
    have hhere := h (c :: passed) (List.cons_ne_nil c passed) List.suffix_rfl
    have hlater : ∀ s, s ≠ [] → s <:+ passed → ¬ block <+: s ++ rest := by
      intro s hne hs
      exact h s hne (hs.trans (List.suffix_cons c passed))
    rw [List.cons_append] at hhere ⊢
    rw [replaceAfter_cons hhere, ih hlater, List.cons_append]

/-- What is read in the result without the first character of the new text was there before. -/
theorem prefix_of_prefix_replaceAfter {first : Char} (hnew : new.head? = some first)
    (hblock : block ≠ []) {p l : List Char} (hfirst : first ∉ p)
    (h : p <+: replaceAfter block new 0 l) : p <+: l := by
  induction p generalizing l with
  | nil => exact List.nil_prefix
  | cons c p ih =>
    obtain ⟨hc, hp⟩ := not_or.mp (List.mem_cons.not.mp hfirst)
    cases l with
    | nil => exact h
    | cons d l =>
      by_cases hfront : block <+: d :: l
      · obtain ⟨rest, hrest⟩ := hfront
        obtain ⟨tail, rfl⟩ := List.head?_eq_some_iff.mp hnew
        rw [← hrest, replaceAfter_block hblock, List.cons_append, List.cons_prefix_cons] at h
        exact absurd h.1.symm hc
      · rw [replaceAfter_cons hfront, List.cons_prefix_cons] at h
        exact List.cons_prefix_cons.mpr ⟨h.1, ih hp h.2⟩

end Text

namespace Command.Template

open Text

/-- Paths of script files: absolute, with the ending of scripts, and free of the text
placeholder. -/
structure ScriptPath (file : String) : Prop where
  absolute : file.toList.head? = some '/'
  ending : ".js".toList <:+ file.toList
  free : ¬ codePlaceholder.toList <:+: file.toList

theorem simultaneousFrom_eq_drop (code file : List Char) (skip : Nat) (l : List Char) :
    simultaneousFrom code file skip l = simultaneousFrom code file 0 (l.drop skip) := by
  induction skip generalizing l with
  | zero => rfl
  | succ skip ih =>
    cases l with
    | nil => rfl
    | cons c l => exact ih l

/-- One step of the pass: a placeholder in front is replaced and left behind as a whole. -/
theorem simultaneousFrom_cons (code file : List Char) (c : Char) (l : List Char) :
    simultaneousFrom code file 0 (c :: l) =
      if filePlaceholder.toList <+: c :: l then
        file ++ simultaneousFrom code file 0 ((c :: l).drop filePlaceholder.toList.length)
      else if codePlaceholder.toList <+: c :: l then
        code ++ simultaneousFrom code file 0 ((c :: l).drop codePlaceholder.toList.length)
      else c :: simultaneousFrom code file 0 l := by
  rw [simultaneousFrom, simultaneousFrom_eq_drop _ _ (filePlaceholder.length - 1),
    simultaneousFrom_eq_drop _ _ (codePlaceholder.length - 1)]
  simp only [List.isPrefixOf_iff_prefix]
  rfl

/-- No path placeholder starts inside a text placeholder. -/
theorem no_file_inside_code (rest : List Char) :
    ∀ s, s ≠ [] → s <:+ codePlaceholder.toList → ¬ filePlaceholder.toList <+: s ++ rest := by
  have hborders : ∀ s ∈ codePlaceholder.toList.tails, s ≠ [] → ¬ s <+: filePlaceholder.toList := by
    decide
  intro s hne hs hfront
  have hshort : s.length ≤ filePlaceholder.toList.length := hs.length_le.trans (by decide)
  apply hborders s ((List.mem_tails s _).mpr hs) hne
  exact List.prefix_of_prefix_length_le (List.prefix_append s rest) hfront hshort

theorem ScriptPath.last_mem {file : String} (h : ScriptPath file) {s : List Char} (hne : s ≠ [])
    (hs : s <:+ file.toList) : 's' ∈ s := by
  obtain ⟨stem, hfile⟩ := h.ending
  obtain ⟨before, hsplit⟩ := hs
  have hlast : (before ++ s).getLast? = some 's' := by
    rw [hsplit, ← hfile, List.getLast?_append]
    rfl
  rw [List.getLast?_append_of_ne_nil before hne] at hlast
  exact List.mem_of_getLast? hlast

/-- No text placeholder starts inside the path: it would lie in the path or go over its end, and
the last character of the path is in no placeholder. -/
theorem ScriptPath.no_code_inside {file : String} (h : ScriptPath file) (rest : List Char) :
    ∀ s, s ≠ [] → s <:+ file.toList → ¬ codePlaceholder.toList <+: s ++ rest := by
  intro s hne hs hfront
  rcases Nat.le_total codePlaceholder.toList.length s.length with hlong | hshort
  · have hinside : codePlaceholder.toList <+: s :=
      List.prefix_of_prefix_length_le hfront (List.prefix_append s rest) hlong
    exact h.free (hinside.isInfix.trans hs.isInfix)
  · have hpart : s <+: codePlaceholder.toList :=
      List.prefix_of_prefix_length_le (List.prefix_append s rest) hfront hshort
    exact absurd (hpart.subset (h.last_mem hne hs)) (by decide)

theorem ScriptPath.replace_replace {file : String} (h : ScriptPath file) (code l : List Char) :
    replaceAfter codePlaceholder.toList code 0
        (replaceAfter filePlaceholder.toList file.toList 0 l) =
      simultaneousFrom code file.toList 0 l := by
  -- on the length of what is left of the template: a placeholder is taken off as a whole
  induction hlength : l.length using Nat.strong_induction_on generalizing l with
  | _ n ih =>
    cases l with
    | nil => rfl
    | cons c l =>
      have hleft : ∀ front rest, 0 < front.length → front ++ rest = c :: l →
          replaceAfter codePlaceholder.toList code 0
              (replaceAfter filePlaceholder.toList file.toList 0 rest) =
            simultaneousFrom code file.toList 0 rest := by
        intro front rest hfront hsplit
        have hshorter : rest.length < n := by
          rw [← hlength, ← hsplit, List.length_append]
          exact Nat.lt_add_of_pos_left hfront
        exact ih rest.length hshorter rest rfl
      rw [simultaneousFrom_cons]
      split
      · next hfront =>
        obtain ⟨rest, hrest⟩ := hfront
        rw [← hrest, replaceAfter_block (by decide), replaceAfter_append (h.no_code_inside _),
          List.drop_left, hleft _ rest (by decide) hrest]
      · next hfile =>
        split
        · next hfront =>
          obtain ⟨rest, hrest⟩ := hfront
          rw [← hrest, replaceAfter_append (no_file_inside_code rest),
            replaceAfter_block (by decide), List.drop_left, hleft _ rest (by decide) hrest]
        · next hcode =>
          have hstill : ¬ codePlaceholder.toList <+:
              c :: replaceAfter filePlaceholder.toList file.toList 0 l := by
            rw [← replaceAfter_cons hfile]
            intro hfront
            exact hcode (prefix_of_prefix_replaceAfter h.absolute (by decide) (by decide) hfront)
          rw [replaceAfter_cons hfile, replaceAfter_cons hstill, hleft [c] l Nat.zero_lt_one rfl]

/-- For the path of a script file, replacing one placeholder after the other is the one pass over
the template that replaces both and never looks at what it put in. -/
theorem expand_eq_simultaneous (template code : String) {file : String} (h : ScriptPath file) :
    expand template code file = simultaneous template code file := by
  rw [expand, Text.replaceBlock, Text.replaceBlock, String.toList_ofList, h.replace_replace,
    simultaneous]

/-- Braces around both placeholders, and each text put in names a placeholder. -/
theorem expand_eq_simultaneous_braces :
    let template := "\x7b\x7b\x7b\x7bcode_file\x7d\x7d\x7d\x7d \x7b\x7b\x7bcode\x7d\x7d\x7d"
    let code := "\x7b\x7bcode\x7d\x7d\x7b\x7bcode_file\x7d\x7d"
    let file := "/\x7b\x7bcode_file\x7d\x7d.js"
    ScriptPath file ∧ expand template code file = simultaneous template code file ∧
      expand template code file = "\x7b\x7b" ++ file ++ "\x7d\x7d \x7b" ++ code ++ "\x7d" := by
  intro template code file
  have h : ScriptPath file := ⟨by decide, by decide, by decide⟩
  have hpass := expand_eq_simultaneous template code h
  exact ⟨h, hpass, hpass.trans (by decide)⟩

end Command.Template

end HostProbe
