import HostProbe.Proofs.Table
import HostProbe.Proofs.Utf8
import HostProbe.Settings.RcFile
import Mathlib.Data.List.TakeDrop
import Mathlib.Data.List.TakeWhile

/-!
The rc file, line by line. `Assigns` says what an assignment line is, `Readable` which lines of a
file are looked at, and `LastAssigned` which of several assignments to one key counts.

Lines end with a line feed. A carriage return before it belongs to the line and goes away with the
other blanks; what follows the last line feed is a line too, and assigns nothing if it is empty.
-/

namespace HostProbe.RcFile

/-- Trimmed, the line is no comment and has an equals sign; the first one stands between key and
value, which are trimmed in turn. -/
def Assigns (line key value : String) : Prop :=
  ∃ before rest : List Char, Text.trimChars line.toList = before ++ '=' :: rest ∧ '=' ∉ before ∧
    (before ++ '=' :: rest).head? ≠ some '#' ∧
    key = String.ofList (Text.trimChars before) ∧ value = String.ofList (Text.trimChars rest)

/-- The lines up to the first that is not UTF-8. -/
def Readable (octets : List UInt8) (lines : List String) : Prop :=
  ∃ rest, octets.splitOn 10 = lines.map Text.Utf8.encode ++ rest ∧
    ∀ bad, rest.head? = some bad → ∀ s, Text.Utf8.encode s ≠ bad

/-- The last of the lines that assign to the key gives it the value. -/
def LastAssigned (lines : List String) (key value : String) : Prop :=
  ∃ before line rest, lines = before ++ line :: rest ∧ Assigns line key value ∧
    ∀ later ∈ rest, ∀ v, ¬ Assigns later key v

theorem splitAssignment_eq_some_iff {l before rest : List Char} :
    splitAssignment l = some (before, rest) ↔ l = before ++ '=' :: rest ∧ '=' ∉ before := by
  rw [splitAssignment, List.span_eq_takeWhile_dropWhile]
  constructor
  · intro h
    split at h
    · cases h
    · next key sign value hspan =>
      obtain ⟨rfl, rfl⟩ := Prod.mk.inj (Option.some.inj h)
      obtain ⟨hkey, hrest⟩ := Prod.mk.inj hspan
      have hsign := List.head_dropWhile_not (fun c : Char => decide (c ≠ '=')) (l := l)
        (by rw [hrest]; exact List.cons_ne_nil _ _)
      simp only [hrest, List.head_cons, decide_eq_false_iff_not, not_not] at hsign
      subst hsign
      refine ⟨?_, ?_⟩
      · rw [← hkey, ← hrest, List.takeWhile_append_dropWhile]
      · rw [← hkey]
        intro hmem
        simpa using List.mem_takeWhile_imp hmem
  · rintro ⟨rfl, hbefore⟩
    have hall : ∀ c ∈ before, decide (c ≠ '=') = true := by
      intro c hc
      exact decide_eq_true fun he => hbefore (he ▸ hc)
    rw [List.takeWhile_append_of_pos hall, List.dropWhile_append_of_pos hall]
    simp

theorem assignment?_eq_some_iff {line key value : String} :
    assignment? line = some (key, value) ↔ Assigns line key value := by
  rw [assignment?, Assigns]
  generalize Text.trimChars line.toList = trimmed
  constructor
  · intro h
    split at h
    · cases h
    · cases h
    · next _ hcomment =>
      obtain ⟨⟨before, rest⟩, hsplit, hparts⟩ := Option.map_eq_some_iff.mp h
      obtain ⟨rfl, rfl⟩ := Prod.mk.inj hparts
      obtain ⟨htrimmed, hbefore⟩ := splitAssignment_eq_some_iff.mp hsplit
      refine ⟨before, rest, htrimmed, hbefore, ?_, rfl, rfl⟩
      rw [← htrimmed]
      intro hhead
      obtain ⟨tail, htail⟩ := List.head?_eq_some_iff.mp hhead
      exact hcomment tail htail
  · rintro ⟨before, rest, rfl, hbefore, hhead, rfl, rfl⟩
    split
    · next hempty => exact absurd hempty (by simp)
    · next tail hcomment => exact absurd (congrArg List.head? hcomment) hhead
    · rw [splitAssignment_eq_some_iff.mpr ⟨rfl, hbefore⟩]
      rfl

def assigned (key line : String) : Option String := (assignment? line).bind (Table.writes key)

theorem assigned_eq_some_iff {key line value : String} :
    assigned key line = some value ↔ Assigns line key value := by
  rw [← assignment?_eq_some_iff, assigned, Option.bind_eq_some_iff]
  constructor
  · rintro ⟨⟨k, v⟩, hline, hwrites⟩
    simp only [Table.writes, Option.ite_none_right_eq_some, Option.some.injEq] at hwrites
    obtain ⟨rfl, rfl⟩ := hwrites
    exact hline
  · intro hline
    exact ⟨(key, value), hline, if_pos rfl⟩

theorem findSomeRev?_assigned_iff {lines : List String} {key value : String} :
    lines.findSomeRev? (assigned key) = some value ↔ LastAssigned lines key value := by
  simp only [findSomeRev?_eq_some_iff, LastAssigned, assigned_eq_some_iff,
    Option.eq_none_iff_forall_ne_some, ne_eq]

theorem readable_decodeLines (octets : List UInt8) :
    Readable octets (decodeLines (rawLines octets)) := by
  rw [Readable, rawLines]
  generalize octets.splitOn 10 = raw
  induction raw with
  | nil => exact ⟨[], rfl, fun bad h => nomatch h⟩
  | cons l raw ih =>
    rw [decodeLines]
    split
    · next line hl =>
      obtain ⟨rest, hraw, hstop⟩ := ih
      refine ⟨rest, ?_, hstop⟩
      rw [List.map_cons, List.cons_append, ← hraw, Text.Utf8.decode_eq_some_iff.mp hl]
    · next hl =>
      refine ⟨l :: raw, rfl, ?_⟩
      rintro bad hbad s rfl
      obtain rfl := Option.some.inj hbad
      exact nomatch hl.symm.trans (Text.Utf8.decode_eq_some_iff.mpr rfl)

/-- An undecodable line ends the reading and takes nothing away from what was read before. -/
theorem decodeLines_stop (good : List String) {bad : List UInt8} (rest : List (List UInt8))
    (hbad : ∀ s, Text.Utf8.encode s ≠ bad) :
    decodeLines (good.map Text.Utf8.encode ++ bad :: rest) = good := by
  induction good with
  | nil =>
    rw [List.map_nil, List.nil_append, decodeLines]
    split
    · next line hl => exact absurd (Text.Utf8.decode_eq_some_iff.mp hl).symm (hbad line)
    · rfl
  | cons line good ih =>
    rw [List.map_cons, List.cons_append, decodeLines, Text.Utf8.decode_eq_some_iff.mpr rfl]
    simp only [ih]

end HostProbe.RcFile
