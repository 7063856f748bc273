import HostProbe.Proofs.SettingsLayers
import HostProbe.Proofs.Trimming

/-!
Writing an rc file and reading it back. `Written` says which texts write down a list of pairs: a
pair stands on a line of its own, with blanks wherever they are trimmed away, and between such
lines there may be others that assign nothing. Each line but the last ends with a line feed or a
carriage return and a line feed.

Reading gives back exactly the pairs, in order, so the settings show the last value of each key.
-/

namespace HostProbe

namespace RcFile

open Text (Trimmed isBlank trimChars)

/-- Blanks that may be added inside a line. -/
def Spaces (l : List Char) : Prop := ∀ c ∈ l, isBlank c = true ∧ c ≠ '\n'

instance (l : List Char) : Decidable (Spaces l) := List.decidableBAll _ l

structure IsKey (key : String) : Prop where
  oneLine : '\n' ∉ key.toList
  trimmed : Trimmed key.toList
  noSign : '=' ∉ key.toList
  noComment : key.toList.head? ≠ some '#'

/-- A value may hold equals signs and start with a number sign. -/
structure IsValue (value : String) : Prop where
  oneLine : '\n' ∉ value.toList
  trimmed : Trimmed value.toList

/-- The text of one line, with the pair it writes down if it does. -/
inductive LineText : Option (String × String) → List Char → Prop where
  | pair {key value : String} {a b c d : List Char} : IsKey key → IsValue value →
      Spaces a → Spaces b → Spaces c → Spaces d →
      LineText (some (key, value)) (a ++ key.toList ++ b ++ '=' :: (c ++ value.toList ++ d))
  | blank {a : List Char} : Spaces a → LineText none a
  | comment {a text : List Char} : Spaces a → '\n' ∉ text → LineText none (a ++ '#' :: text)
  | unassigned {text : List Char} : '=' ∉ text → '\n' ∉ text → LineText none text

inductive LineEnd : List Char → Prop where
  | lf : LineEnd ['\n']
  | crlf : LineEnd ['\r', '\n']

/-- The texts that write down the pairs, in order. -/
inductive Written : List (String × String) → List Char → Prop where
  | done : Written [] []
  | unended {said : Option (String × String)} {text : List Char} : LineText said text →
      Written said.toList text
  | line {said : Option (String × String)} {text ending rest : List Char}
      {pairs : List (String × String)} : LineText said text → LineEnd ending → Written pairs rest →
      Written (said.toList ++ pairs) (text ++ ending ++ rest)

theorem Spaces.blank {l : List Char} (h : Spaces l) : ∀ c ∈ l, isBlank c = true :=
  fun c hc => (h c hc).1

theorem Spaces.not_mem {l : List Char} (h : Spaces l) {c : Char} (hc : isBlank c = false) :
    c ∉ l := by
  intro hmem
  exact Bool.false_ne_true (hc.symm.trans (h.blank c hmem))

theorem Spaces.newline_not_mem {l : List Char} (h : Spaces l) : '\n' ∉ l :=
  fun hmem => (h '\n' hmem).2 rfl

theorem LineText.newline_not_mem {said : Option (String × String)} {text : List Char}
    (h : LineText said text) : '\n' ∉ text := by
  cases h with
  | pair hkey hvalue ha hb hc hd =>
    simp [ha.newline_not_mem, hb.newline_not_mem, hc.newline_not_mem, hd.newline_not_mem,
      hkey.oneLine, hvalue.oneLine]
  | blank ha => exact ha.newline_not_mem
  | comment ha htext => simp [ha.newline_not_mem, htext]
  | unassigned _ htext => exact htext

/-- The first character that is not blank belongs to the key, or is the equals sign. -/
theorem head?_ne_comment {key : String} (hkey : IsKey key) {a b : List Char} (ha : Spaces a)
    (hb : Spaces b) (rest : List Char) :
    ((a ++ key.toList ++ b).dropWhile isBlank ++ '=' :: rest).head? ≠ some '#' := by
  rw [List.append_assoc, List.dropWhile_append_of_pos ha.blank]
  cases hk : key.toList with
  | nil => simp [List.dropWhile_eq_nil_iff.mpr hb.blank]
  | cons c l =>
    have hc : isBlank c = false := hkey.trimmed.head c (by rw [hk]; rfl)
    have hne : c ≠ '#' := fun he => hkey.noComment (by rw [hk, he]; rfl)
    rw [List.cons_append, List.dropWhile_cons_of_neg (by simp [hc])]
    simpa using hne

theorem assigns_pair {key value : String} {a b c d : List Char} (hkey : IsKey key)
    (hvalue : IsValue value) (ha : Spaces a) (hb : Spaces b) (hc : Spaces c) (hd : Spaces d) :
    Assigns (String.ofList (a ++ key.toList ++ b ++ '=' :: (c ++ value.toList ++ d)))
      key value := by
  have hsign : isBlank '=' = false := by decide
  refine ⟨(a ++ key.toList ++ b).dropWhile isBlank,
    Text.dropTrailing isBlank (c ++ value.toList ++ d), ?_, ?_, ?_, ?_, ?_⟩
  · rw [String.toList_ofList, Text.trimChars_append_cons hsign]
  · intro hmem
    have hwhole := (List.dropWhile_suffix isBlank).mem hmem
    simp [ha.not_mem hsign, hb.not_mem hsign, hkey.noSign] at hwhole
  · exact head?_ne_comment hkey ha hb _
  · rw [Text.trimChars_dropWhile, hkey.trimmed.trimChars_between ha.blank hb.blank,
      String.ofList_toList]
  · rw [Text.trimChars_dropTrailing, hvalue.trimmed.trimChars_between hc.blank hd.blank,
      String.ofList_toList]

theorem assignment?_eq_none {line : String} (h : ∀ key value, ¬ Assigns line key value) :
    assignment? line = none := by
  apply Option.eq_none_iff_forall_ne_some.mpr
  rintro ⟨key, value⟩ hsome
  exact h key value (assignment?_eq_some_iff.mp hsome)

/-- A line says what it writes down, and nothing if it writes down no pair. -/
theorem LineText.assignment?_eq {said : Option (String × String)} {text : List Char}
    (h : LineText said text) : assignment? (String.ofList text) = said := by
  cases h with
  | pair hkey hvalue ha hb hc hd =>
    exact assignment?_eq_some_iff.mpr (assigns_pair hkey hvalue ha hb hc hd)
  | blank ha =>
    apply assignment?_eq_none
    rintro key value ⟨before, rest, htrimmed, _⟩
    have hempty := Text.trimChars_append_blanks [] ha.blank
    rw [String.toList_ofList, ← List.nil_append text, hempty] at htrimmed
    exact absurd htrimmed (by simp [trimChars, Text.dropTrailing])
  | @comment a text ha htext =>
    apply assignment?_eq_none
    rintro key value ⟨before, rest, htrimmed, _, hhead, _⟩
    have hmark : isBlank '#' = false := by decide
    rw [String.toList_ofList, Text.trimChars_append_cons hmark,
      List.dropWhile_eq_nil_iff.mpr ha.blank] at htrimmed
    exact hhead (by rw [← htrimmed]; rfl)
  | unassigned hsign htext =>
    apply assignment?_eq_none
    rintro key value ⟨before, rest, htrimmed, _⟩
    have hmem : '=' ∈ text := by
      apply Text.mem_of_mem_trimChars
      rw [String.toList_ofList] at htrimmed
      simp [htrimmed]
    exact hsign hmem

theorem assignment?_append_blanks (text : List Char) {t : List Char}
    (h : ∀ c ∈ t, isBlank c = true) :
    assignment? (String.ofList (text ++ t)) = assignment? (String.ofList text) := by
  rw [assignment?, assignment?, String.toList_ofList, String.toList_ofList,
    Text.trimChars_append_blanks text h]

theorem lineFeed_not_mem_encode {text : List Char} (h : '\n' ∉ text) :
    10 ∉ Text.Utf8.encode (String.ofList text) :=
  fun hmem => h (Text.Utf8.ascii_mem_encode hmem (by decide))

theorem rawLines_unended {text : List Char} (h : '\n' ∉ text) :
    rawLines (Text.Utf8.encode (String.ofList text)) = [Text.Utf8.encode (String.ofList text)] := by
  rw [rawLines, List.splitOn_eq_splitOnP]
  apply List.splitOnP_eq_singleton
  intro b hb
  exact beq_false_of_ne fun he => lineFeed_not_mem_encode h (he ▸ hb)

/-- A line feed among the characters is the only way to one among the octets, so cutting the octets
cuts the text. -/
theorem rawLines_line {text : List Char} (h : '\n' ∉ text) (rest : List Char) :
    rawLines (Text.Utf8.encode (String.ofList (text ++ '\n' :: rest))) =
      Text.Utf8.encode (String.ofList text) ::
        rawLines (Text.Utf8.encode (String.ofList rest)) := by
  have hoctets : Text.Utf8.encode (String.ofList (text ++ '\n' :: rest)) =
      Text.Utf8.encode (String.ofList text) ++ 10 :: Text.Utf8.encode (String.ofList rest) := by
    rw [Text.Utf8.encode_append]
    simp only [Text.Utf8.encode, String.toList_ofList, List.flatMap_cons]
    rfl
  have hfirst := rawLines_unended h
  rw [rawLines, List.splitOn_eq_splitOnP] at hfirst
  rw [rawLines, rawLines, List.splitOn_eq_splitOnP, List.splitOn_eq_splitOnP, hoctets,
    List.splitOnP_append_cons (p := fun b => b == 10) _ _ rfl, hfirst, List.singleton_append]

theorem decodeLines_encode (line : String) (rest : List (List UInt8)) :
    decodeLines (Text.Utf8.encode line :: rest) = line :: decodeLines rest := by
  rw [decodeLines, Text.Utf8.decode_eq_some_iff.mpr rfl]

theorem assignments_unended {text : List Char} (h : '\n' ∉ text) :
    assignments (Text.Utf8.encode (String.ofList text)) =
      (assignment? (String.ofList text)).toList := by
  rw [assignments, rawLines_unended h, decodeLines_encode, decodeLines]
  cases hsaid : assignment? (String.ofList text) <;> simp [hsaid]

theorem assignments_line {text : List Char} (h : '\n' ∉ text) (rest : List Char) :
    assignments (Text.Utf8.encode (String.ofList (text ++ '\n' :: rest))) =
      (assignment? (String.ofList text)).toList ++
        assignments (Text.Utf8.encode (String.ofList rest)) := by
  rw [assignments, assignments, rawLines_line h, decodeLines_encode]
  cases hsaid : assignment? (String.ofList text) <;> simp [hsaid]

/-- Reading what was written gives back the pairs. -/
theorem Written.assignments_eq {pairs : List (String × String)} {text : List Char}
    (h : Written pairs text) : assignments (Text.Utf8.encode (String.ofList text)) = pairs := by
  induction h with
  | done => rfl
  | unended hline => rw [assignments_unended hline.newline_not_mem, hline.assignment?_eq]
  | @line said text ending rest pairs hline hending _ ih =>
    cases hending with
    | lf =>
      rw [List.append_assoc, List.singleton_append, assignments_line hline.newline_not_mem,
        hline.assignment?_eq, ih]
    | crlf =>
      -- the carriage return belongs to the line and is trimmed away with it
      have hnone : '\n' ∉ text ++ ['\r'] := by simp [hline.newline_not_mem]
      have hsplit : text ++ ['\r', '\n'] ++ rest = text ++ ['\r'] ++ '\n' :: rest := by simp
      have hreturn : ∀ c ∈ ['\r'], isBlank c = true := List.forall_mem_singleton.mpr rfl
      rw [hsplit, assignments_line hnone, assignment?_append_blanks text hreturn,
        hline.assignment?_eq, ih]

end RcFile

namespace Settings

open RcFile (IsKey LineText Written)
open Table (writes)

/-- Without the five variables the settings come from the rc file and the defaults. -/
theorem get?_loadFrom_unset {files : Files} {e : Environment} {path : String} {octets : List UInt8}
    (hfile : files.readOctets path = .ok octets)
    (hunset : ∀ p ∈ e.bindings, p.1 ∉ environmentKeys) (key : String) :
    (loadFrom files e path).get? key =
      ((RcFile.assignments octets).findSomeRev? (writes key)).or ((defaults e).lookup key) := by
  have hsilent :
      (if key ∈ environmentKeys then e.bindings.findSomeRev? (writes key) else none) = none := by
    by_cases hkey : key ∈ environmentKeys
    · rw [if_pos hkey, Table.findSomeRev?_writes_eq_none_iff]
      intro hmem
      obtain ⟨p, hp, rfl⟩ := List.mem_map.mp hmem
      exact hunset p hp hkey
    · rw [if_neg hkey]
  rw [loadFrom, hfile, get?_ofLayers, hsilent, Option.none_or, RcFile.assignments,
    findSomeRev?_filterMap]
  rfl

end Settings

end HostProbe
