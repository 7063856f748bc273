import HostProbe.Proofs.RcFile
import HostProbe.Settings.Basic

/-!
The three layers of the settings. For each key the environment comes before the rc file and the rc
file before the defaults; the environment is heard on five keys only, the rc file on all.
-/

namespace HostProbe

open Table (writes)

theorem Environment.get?_eq_lookup (e : Environment) (name : String) :
    e.get? name = e.bindings.lookup name := by
  rw [get?, List.lookup_eq_findSome?]
  induction e.bindings with
  | nil => rfl
  | cons p bindings ih =>
    rw [List.find?_cons, List.findSome?_cons]
    by_cases h : name = p.1
    · simp [h]
    · have hother : (p.1 == name) = false := beq_false_of_ne (Ne.symm h)
      simpa [h, hother] using ih

namespace Settings

/-- The filter lets through what is written under one of the five keys and nothing else. -/
theorem overlay_writes (e : Environment) (key : String) :
    (overlay e).findSomeRev? (writes key) =
      if key ∈ environmentKeys then e.bindings.findSomeRev? (writes key) else none := by
  rw [overlay]
  induction e.bindings using List.reverseRecOn with
  | nil => simp [List.findSomeRev?]
  | append_singleton bindings p ih =>
    rw [List.filter_append, findSomeRev?_append, findSomeRev?_concat, ih]
    by_cases h : key = p.1
    · subst h
      by_cases hkey : p.1 ∈ environmentKeys <;> simp [hkey, writes]
    · have hnone : writes key p = none := if_neg h
      by_cases hkey : p.1 ∈ environmentKeys <;> simp [hkey, hnone]

theorem defaults_keys (e : Environment) : (defaults e).map Prod.fst = environmentKeys := rfl

theorem defaults_writes (e : Environment) (key : String) :
    (defaults e).findSomeRev? (writes key) = (defaults e).lookup key := by
  apply Table.findSomeRev?_writes_of_nodup
  rw [defaults_keys]
  decide

theorem defaults_lookup_eq_none (e : Environment) {key : String} (h : key ∉ environmentKeys) :
    (defaults e).lookup key = none := by
  rw [List.lookup_eq_none_iff]
  intro p hp
  have hmem : p.1 ∈ environmentKeys := by
    rw [← defaults_keys e]
    exact List.mem_map_of_mem hp
  have hne : key ≠ p.1 := fun he => h (he ▸ hmem)
  simpa using hne

/-- Overwriting one table layer by layer reads as asking the layers one after another. -/
theorem get?_ofLayers (octets : List UInt8) (e : Environment) (path key : String) :
    (ofLayers octets e path).get? key =
      (if key ∈ environmentKeys then e.bindings.findSomeRev? (writes key) else none).or
        (((RcFile.decodeLines (RcFile.rawLines octets)).findSomeRev? (RcFile.assigned key)).or
          ((defaults e).lookup key)) := by
  simp only [get?, ofLayers, Table.ofPairs, Table.find?_insertAll, overlay_writes, defaults_writes,
    RcFile.assignments, findSomeRev?_filterMap, Table.find?, Option.or_none]
  rfl

/-- The layers of the settings, for one key. Of the rc file the readable lines count, up to the
first that is not UTF-8, and of these the last that assigns to the key; a file that is missing or
a directory says nothing. A variable that stands in the environment once has the value it is
looked up with. -/
theorem loadFrom_layers (files : Files) (e : Environment) (path key : String) :
    let settings := loadFrom files e path
    ∃ (lines : List String) (rc : Option String),
      settings.get? key =
        (if key ∈ environmentKeys then e.bindings.findSomeRev? (writes key) else none).or
          (rc.or ((defaults e).lookup key)) ∧
      (∀ v, rc = some v ↔ RcFile.LastAssigned lines key v) ∧
      (∀ octets, files.readOctets path = .ok octets → RcFile.Readable octets lines) ∧
      (∀ error, files.readOctets path = .error error → rc = none) ∧
      ((e.bindings.map Prod.fst).Nodup → e.bindings.findSomeRev? (writes key) = e.get? key) ∧
      (key ∉ environmentKeys → settings.get? key = rc) ∧
      ∀ octets good bad rest, files.readOctets path = .ok octets →
        octets.splitOn 10 = good.map Text.Utf8.encode ++ bad :: rest →
        (∀ s, Text.Utf8.encode s ≠ bad) → lines = good := by
  intro settings
  have hlayers := get?_ofLayers ((files.readOctets path).toOption.getD []) e path key
  refine ⟨_, _, hlayers, fun v => RcFile.findSomeRev?_assigned_iff, ?_, ?_, ?_, ?_, ?_⟩
  · intro octets hread
    rw [hread]
    exact RcFile.readable_decodeLines octets
  · intro error hread
    rw [hread]
    rfl
  · intro hdistinct
    rw [e.get?_eq_lookup, Table.findSomeRev?_writes_of_nodup hdistinct]
  · intro hkey
    change (ofLayers _ e path).get? key = _
    rw [hlayers, if_neg hkey, defaults_lookup_eq_none e hkey, Option.none_or, Option.or_none]
  · intro octets good bad rest hread hsplit hbad
    rw [hread]
    change RcFile.decodeLines (octets.splitOn 10) = good
    rw [hsplit, RcFile.decodeLines_stop good rest hbad]

theorem loadFrom_layers_cut_file :
    let octets := Text.Utf8.encode "A = 1\r\nB=2\n A=3 =\r\n" ++ [0xFF, 10] ++
      Text.Utf8.encode "A=4"
    let files : Files := ⟨[(["rc"], .file octets)], []⟩
    let e : Environment := ⟨[("A", "5"), ("VKPROBE_HOST", "command")], some "/root"⟩
    (e.bindings.map Prod.fst).Nodup ∧ files.readOctets "/rc" = .ok octets ∧
      (loadFrom files e "/rc").get? "A" = some "3 =" ∧
      (loadFrom files e "/rc").get? "VKPROBE_HOST" = e.get? "VKPROBE_HOST" := by
  intro octets files e
  have hdistinct : (e.bindings.map Prod.fst).Nodup := by decide
  have hread : files.readOctets "/rc" = .ok octets := rfl
  have hbad : ∀ s, Text.Utf8.encode s ≠ [0xFF] := by
    intro s h
    exact nomatch (Text.Utf8.decode_eq_some_iff.mpr h.symm : Text.Utf8.decode [0xFF] = some s)
  obtain ⟨lines, rc, _, hrc, _, _, _, hfile, hcut⟩ := loadFrom_layers files e "/rc" "A"
  have hlines := hcut octets ["A = 1\r", "B=2", " A=3 =\r"] [0xFF] [Text.Utf8.encode "A=4"]
    hread rfl hbad
  have hlast : RcFile.LastAssigned lines "A" "3 =" := by
    rw [hlines]
    refine ⟨["A = 1\r", "B=2"], " A=3 =\r", [], rfl, ?_, by simp⟩
    exact RcFile.assignment?_eq_some_iff.mp rfl
  obtain ⟨_, rc', henv, _, _, _, hvalue, _, _⟩ := loadFrom_layers files e "/rc" "VKPROBE_HOST"
  refine ⟨hdistinct, hread, (hfile (by decide)).trans ((hrc "3 =").mpr hlast), ?_⟩
  rw [henv, if_pos (by decide), hvalue hdistinct]
  rfl

end Settings

end HostProbe
