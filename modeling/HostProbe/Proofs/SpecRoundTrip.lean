import HostProbe.Proofs.SpecFile

/-!
A spec that is written to a file is loaded from it unchanged. It may be written as an object or as
an array, and an array may end before values that are the defaults.
-/

namespace HostProbe.Command.Spec

/-- The documents a spec may be written as: the object, or the values in order, where those at
the end may be left out if they are the defaults. -/
inductive Form (h : Spec) : Json → Prop where
  | object : Form h h.document
  | array {n : Nat} : 1 ≤ n → (n ≤ 1 → h.arguments = []) → (n ≤ 2 → h.stdin = false) →
      (n ≤ 3 → h.timeout = none) → Form h (h.sequence n)

/-- The four values in order. -/
def values (h : Spec) : List Json :=
  [.ofText h.program, .array (h.arguments.map .ofText), .bool h.stdin, .ofOption .ofNat h.timeout]

theorem sequence_eq (h : Spec) (n : Nat) : h.sequence n = .array (h.values.take n) := rfl

theorem textual_values (h : Spec) : ∀ v ∈ h.values, v.Textual := by
  simp only [values, List.forall_mem_cons]
  exact ⟨.string _, Json.textual_array_map .string _, .bool _,
    Json.textual_ofOption Json.textual_ofNat _, List.forall_mem_nil _⟩

theorem Form.textual {h : Spec} {v : Json} (hform : Form h v) : v.Textual := by
  cases hform with
  | object =>
    refine .object fun m hm => h.textual_values m.2 ?_
    exact List.mem_map_of_mem (f := Prod.snd) hm
  | array => exact .array fun v hv => h.textual_values v (List.mem_of_mem_take hv)

theorem ofJson_document {h : Spec} (hword : ∀ n ∈ h.timeout, n ≤ 2 ^ 64 - 1) :
    ofJson h.document = some h := by
  have hmembers := (Form.object (h := h)).textual.members
  rw [document, ofJson_ofFields, ofMembers_eq_some_iff hmembers]
  refine ⟨?_, ⟨?_, ?_, ?_, ?_⟩, hword⟩
  · exact (by decide : ∀ key ∈ keys, keys.count key ≤ 1)
  · simp
  · simp
  · simp
  · simp

theorem ofJson_sequence {h : Spec} (hword : ∀ n ∈ h.timeout, n ≤ 2 ^ 64 - 1) {n : Nat}
    (hprogram : 1 ≤ n) (harguments : n ≤ 1 → h.arguments = []) (hstdin : n ≤ 2 → h.stdin = false)
    (htimeout : n ≤ 3 → h.timeout = none) : ofJson (h.sequence n) = some h := by
  have hlength : (h.values.take n).length ≤ 4 := List.length_take_le' n h.values
  rw [sequence_eq, ofJson, if_pos hlength, ofParts_eq_some_iff]
  · refine ⟨?_, ?_, ?_, ?_⟩
    · exact List.getElem?_take_of_lt hprogram
    · by_cases hn : 1 < n
      · exact Or.inl (List.getElem?_take_of_lt hn)
      · exact Or.inr ⟨List.getElem?_take_eq_none (by omega), harguments (by omega)⟩
    · by_cases hn : 2 < n
      · exact Or.inl (List.getElem?_take_of_lt hn)
      · exact Or.inr ⟨List.getElem?_take_eq_none (by omega), hstdin (by omega)⟩
    · by_cases hn : 3 < n
      · exact Or.inl ⟨List.getElem?_take_of_lt hn, hword⟩
      · exact Or.inr ⟨List.getElem?_take_eq_none (by omega), htimeout (by omega)⟩
  · intro v hv
    exact h.textual_values v (List.mem_of_mem_take (List.mem_of_getElem? hv))

theorem Form.ofJson {h : Spec} (hword : ∀ n ∈ h.timeout, n ≤ 2 ^ 64 - 1) {v : Json}
    (hform : Form h v) : Spec.ofJson v = some h := by
  cases hform with
  | object => exact ofJson_document hword
  | array hn ha hs ht => exact ofJson_sequence hword hn ha hs ht

theorem Form.read {h : Spec} (hword : ∀ n ∈ h.timeout, n ≤ 2 ^ 64 - 1) {v : Json}
    (hform : Form h v) {text : String}
    (htext : text = String.ofList (Json.compact v) ∨ text = v.render) :
    Spec.read text = some h := by
  have hdocument : Json.Document text v := by
    rcases htext with rfl | rfl
    · exact hform.textual.document_compact
    · exact hform.textual.document_render
  rw [read_eq_ofJson hdocument, hform.ofJson hword]

/-- However it is written, a spec is loaded as it was; a blank program is refused. -/
theorem load_written {h : Spec} (hword : ∀ n ∈ h.timeout, n ≤ 2 ^ 64 - 1) {v : Json}
    (hform : Form h v) {text : String}
    (htext : text = String.ofList (Json.compact v) ∨ text = v.render) {files : Files}
    {path : String} (hfile : files.readOctets path = .ok (Text.Utf8.encode text)) :
    ((∃ c ∈ h.program.toList, Text.isBlank c = false) → load files path = .ok h) ∧
      ((∀ c ∈ h.program.toList, Text.isBlank c = true) →
        load files path = .error (.emptyProgram path)) := by
  have hread := hform.read hword htext
  rw [load_eq_check hfile]
  constructor
  · intro hblank
    exact check_eq_ok_iff.mpr ⟨hread, hblank⟩
  · intro hblank
    have hall : Text.allBlank h.program = true := List.all_eq_true.mpr hblank
    simp only [check, hread, hall, if_true]

theorem load_written_short_array :
    let h : Spec := ⟨"a\"\\\x01😀", ["\n", "/"], false, none⟩
    let text := (h.sequence 2).render
    let files : Files := ⟨[(["h"], .file (Text.Utf8.encode text))], []⟩
    (∀ n ∈ h.timeout, n ≤ 2 ^ 64 - 1) ∧ Form h (h.sequence 2) ∧
      files.readOctets "/h" = .ok (Text.Utf8.encode text) ∧ load files "/h" = .ok h := by
  intro h text files
  have hword : ∀ n ∈ h.timeout, n ≤ 2 ^ 64 - 1 := fun n hn => nomatch hn
  have hform : Form h (h.sequence 2) :=
    .array (by decide) (fun hn => absurd hn (by decide)) (fun _ => rfl) (fun _ => rfl)
  have hfile : files.readOctets "/h" = .ok (Text.Utf8.encode text) := rfl
  refine ⟨hword, hform, hfile, (load_written hword hform (Or.inr rfl) hfile).1 ?_⟩
  exact ⟨'a', by decide, by decide⟩

end HostProbe.Command.Spec
