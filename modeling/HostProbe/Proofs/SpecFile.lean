import HostProbe.Command.Spec
import HostProbe.Proofs.JsonWriting
import HostProbe.Proofs.Utf8

/-!
Which spec files are accepted, and what is loaded from them. `Acceptable` is the condition on the
members of an object, `Holds` says where the values of a loaded spec come from. Both look at the
members as a set, so that neither their order nor members with other keys matter.
-/

namespace HostProbe.Command.Spec

/-- The keys that are looked at. -/
def keys : List String := ["program", "args_template", "stdin", "timeout_sec"]

def Occurs (key : String) (members : List (String × Json)) : Prop := key ∈ members.map Prod.fst

/-- What the members of an object have to be like. -/
structure Acceptable (members : List (String × Json)) : Prop where
  once : ∀ key ∈ keys, (members.map Prod.fst).count key ≤ 1
  program : ∃ s, ("program", Json.ofText s) ∈ members ∧ ∃ c ∈ s.toList, Text.isBlank c = false
  arguments : ∀ v, ("args_template", v) ∈ members → ∃ l : List String, v = .array (l.map .ofText)
  stdin : ∀ v, ("stdin", v) ∈ members → ∃ b, v = .bool b
  timeout : ∀ v, ("timeout_sec", v) ∈ members → v = .null ∨ ∃ n ≤ 2 ^ 64 - 1, v = .ofNat n

/-- The values of a spec are those of the members, or the defaults where a member is missing. -/
structure Holds (members : List (String × Json)) (h : Spec) : Prop where
  program : ("program", .ofText h.program) ∈ members
  arguments : ("args_template", .array (h.arguments.map .ofText)) ∈ members ∨
    ¬ Occurs "args_template" members ∧ h.arguments = []
  stdin : ("stdin", .bool h.stdin) ∈ members ∨ ¬ Occurs "stdin" members ∧ h.stdin = false
  timeout : ("timeout_sec", .ofOption .ofNat h.timeout) ∈ members ∨
    ¬ Occurs "timeout_sec" members ∧ h.timeout = none

/-! ### Members -/

theorem count_eq_length_filter (key : String) (members : List (String × Json)) :
    (members.map Prod.fst).count key = (members.filter fun m => m.1 == key).length := by
  rw [List.count, List.countP_map, List.countP_eq_length_filter]
  rfl

theorem member?_eq_some_iff {key : String} {members : List (String × Json)} {o : Option Json} :
    member? key members = some o ↔
      (members.map Prod.fst).count key ≤ 1 ∧ ∀ v, (key, v) ∈ members ↔ o = some v := by
  have hmem : ∀ v, (key, v) ∈ members ↔ (key, v) ∈ members.filter fun m => m.1 == key := by
    intro v
    rw [List.mem_filter, beq_self_eq_true]
    exact (and_iff_left rfl).symm
  have hkey : ∀ m ∈ members.filter (fun m => m.1 == key), m.1 = key := by
    intro m hm
    exact eq_of_beq (List.mem_filter.mp hm).2
  simp only [count_eq_length_filter, hmem, member?]
  generalize members.filter (fun m => m.1 == key) = found at hkey
  match found, hkey with
  | [], _ => simp [Option.eq_none_iff_forall_ne_some, eq_comm]
  | [(k, w)], hkey =>
    obtain rfl := hkey (k, w) List.mem_cons_self
    constructor
    · intro h
      obtain rfl := Option.some.inj h
      simp [eq_comm]
    · rintro ⟨-, h⟩
      exact congrArg some ((h w).mp List.mem_cons_self).symm
  | _ :: _ :: _, _ => simp

theorem exists_member? {key : String} {members : List (String × Json)}
    (h : (members.map Prod.fst).count key ≤ 1) : ∃ o, member? key members = some o := by
  rw [count_eq_length_filter] at h
  rw [member?]
  generalize members.filter (fun m => m.1 == key) = found at h
  match found, h with
  | [], _ => exact ⟨none, rfl⟩
  | [(_, v)], _ => exact ⟨some v, rfl⟩

theorem occurs_iff {key : String} {members : List (String × Json)} :
    Occurs key members ↔ ∃ v, (key, v) ∈ members := by
  rw [Occurs, List.mem_map]
  constructor
  · rintro ⟨⟨k, v⟩, hm, rfl⟩
    exact ⟨v, hm⟩
  · rintro ⟨v, hm⟩
    exact ⟨(key, v), hm, rfl⟩

theorem part_iff {key : String} {members : List (String × Json)} {o : Option Json}
    (ho : member? key members = some o) {v : Json} {omitted : Prop} :
    (o = some v ∨ o = none ∧ omitted) ↔ ((key, v) ∈ members ∨ ¬ Occurs key members ∧ omitted) := by
  have hmem := (member?_eq_some_iff.mp ho).2
  have hnone : o = none ↔ ¬ Occurs key members := by
    simp only [occurs_iff, hmem, Option.eq_none_iff_forall_ne_some, not_exists, ne_eq]
  rw [hmem, hnone]

/-! ### Values -/

theorem text?_eq_some_iff {v : Json} {s : String} : text? v = some s ↔ v = .ofText s := by
  cases v with
  | string pieces => rw [text?, Json.text?_eq_some_iff, Json.ofText, Json.string.injEq]
  | _ => simp [text?, Json.ofText]

theorem texts?_eq_some_iff {v : Json} {l : List String} :
    texts? v = some l ↔ v = .array (l.map .ofText) := by
  cases v with
  | array items =>
    rw [texts?, Json.mapM_eq_some_iff fun _ _ => text?_eq_some_iff, Json.array.injEq]
  | _ => simp [texts?]

theorem bool?_eq_some_iff {v : Json} {b : Bool} : bool? v = some b ↔ v = .bool b := by
  cases v <;> simp [bool?]

/-- The literals of the grammar that are accepted are those of numbers in range. -/
theorem timeout?_eq_some_iff {v : Json} (hv : v.Textual) {t : Option Nat} :
    timeout? v = some t ↔ v = .ofOption .ofNat t ∧ ∀ n ∈ t, n ≤ 2 ^ 64 - 1 := by
  cases hv with
  | null => cases t <;> simp [timeout?, Json.ofOption, Json.ofNat]
  | @number l hl =>
    constructor
    · intro h
      obtain ⟨n, hn, rfl⟩ := Option.map_eq_some_iff.mp h
      obtain ⟨m, hm, hword⟩ := Option.bind_eq_some_iff.mp hn
      obtain ⟨rfl, hbound⟩ := Text.Decimal.inWord_eq_some_iff.mp hword
      rw [String.toList_ofList, hl.digits?_eq_some_iff] at hm
      subst hm
      exact ⟨rfl, fun n hn => Option.some.inj hn ▸ hbound⟩
    · rintro ⟨he, hbound⟩
      cases t with
      | none => cases he
      | some n =>
        have hdigits := Text.Decimal.digits?_toDigits n
        have hword := Text.Decimal.inWord_eq_some_iff.mpr ⟨rfl, hbound n rfl⟩
        rw [he, Json.ofOption, Json.ofNat, timeout?, Text.Decimal.toList_ofNat, hdigits,
          Option.bind_some, hword, Option.map_some]
  | _ => cases t <;> simp [timeout?, Json.ofOption, Json.ofNat, Json.ofText, Json.ofFields]

theorem orDefault_eq_some_iff {α : Type} {default : α} {read : Json → Option α} {write : α → Json}
    (hread : ∀ v x, read v = some x ↔ v = write x) {o : Option Json} {x : α} :
    orDefault default read o = some x ↔ o = some (write x) ∨ o = none ∧ x = default := by
  cases o with
  | none => simp [orDefault, eq_comm]
  | some v => simp [orDefault, hread]

theorem orDefault_timeout?_eq_some_iff {o : Option Json} (ho : ∀ v ∈ o, v.Textual)
    {t : Option Nat} : orDefault none timeout? o = some t ↔
      o = some (.ofOption .ofNat t) ∧ (∀ n ∈ t, n ≤ 2 ^ 64 - 1) ∨ o = none ∧ t = none := by
  cases o with
  | none => simp [orDefault, eq_comm]
  | some v => simp [orDefault, timeout?_eq_some_iff (ho v rfl)]

/-- Each value is what was given, or the default. -/
theorem ofParts_eq_some_iff {program arguments stdin timeout : Option Json}
    (ht : ∀ v ∈ timeout, v.Textual) {h : Spec} :
    ofParts program arguments stdin timeout = some h ↔
      program = some (.ofText h.program) ∧
      (arguments = some (.array (h.arguments.map .ofText)) ∨
        arguments = none ∧ h.arguments = []) ∧
      (stdin = some (.bool h.stdin) ∨ stdin = none ∧ h.stdin = false) ∧
      (timeout = some (.ofOption .ofNat h.timeout) ∧ (∀ n ∈ h.timeout, n ≤ 2 ^ 64 - 1) ∨
        timeout = none ∧ h.timeout = none) := by
  have hprogram : program.bind text? = some h.program ↔ program = some (.ofText h.program) := by
    rw [Option.bind_eq_some_iff]
    simp only [text?_eq_some_iff, exists_eq_right]
  rw [← hprogram, ← orDefault_eq_some_iff fun _ _ => texts?_eq_some_iff,
    ← orDefault_eq_some_iff fun _ _ => bool?_eq_some_iff, ← orDefault_timeout?_eq_some_iff ht]
  simp only [ofParts, Option.bind_eq_bind, Option.pure_def, Option.bind_eq_some_iff,
    Option.some.injEq]
  constructor
  · rintro ⟨p, hp, a, ha, s, hs, t, ht, rfl⟩
    exact ⟨hp, ha, hs, ht⟩
  · rintro ⟨hp, ha, hs, ht⟩
    exact ⟨_, hp, _, ha, _, hs, _, ht, rfl⟩

/-! ### Objects -/

theorem ofMembers_eq_some_iff {members : List (String × Json)}
    (hm : ∀ m ∈ members, m.2.Textual) {h : Spec} :
    ofMembers members = some h ↔ (∀ key ∈ keys, (members.map Prod.fst).count key ≤ 1) ∧
      Holds members h ∧ ∀ n ∈ h.timeout, n ≤ 2 ^ 64 - 1 := by
  have htextual : ∀ {t}, member? "timeout_sec" members = some t → ∀ v ∈ t, v.Textual := by
    intro t ht v hv
    exact hm _ (((member?_eq_some_iff.mp ht).2 v).mpr hv)
  simp only [ofMembers, Option.bind_eq_bind, Option.bind_eq_some_iff]
  constructor
  · rintro ⟨p, hp, a, ha, s, hs, t, ht, hparts⟩
    obtain ⟨hprogram, harguments, hstdin, htimeout⟩ :=
      (ofParts_eq_some_iff (htextual ht)).mp hparts
    refine ⟨?_, ⟨?_, ?_, ?_, ?_⟩, ?_⟩
    · simp only [keys, List.forall_mem_cons]
      exact ⟨(member?_eq_some_iff.mp hp).1, (member?_eq_some_iff.mp ha).1,
        (member?_eq_some_iff.mp hs).1, (member?_eq_some_iff.mp ht).1,
        List.forall_mem_nil _⟩
    · exact ((member?_eq_some_iff.mp hp).2 _).mpr hprogram
    · exact (part_iff ha).mp harguments
    · exact (part_iff hs).mp hstdin
    · exact (part_iff ht).mp (htimeout.imp_left And.left)
    · rcases htimeout with ⟨-, hbound⟩ | ⟨-, hnone⟩
      · exact hbound
      · rw [hnone]
        exact fun n hn => nomatch hn
  · rintro ⟨honce, hholds, hbound⟩
    obtain ⟨p, hp⟩ := exists_member? (honce "program" (by decide))
    obtain ⟨a, ha⟩ := exists_member? (honce "args_template" (by decide))
    obtain ⟨s, hs⟩ := exists_member? (honce "stdin" (by decide))
    obtain ⟨t, ht⟩ := exists_member? (honce "timeout_sec" (by decide))
    refine ⟨p, hp, a, ha, s, hs, t, ht, (ofParts_eq_some_iff (htextual ht)).mpr ⟨?_, ?_, ?_, ?_⟩⟩
    · exact ((member?_eq_some_iff.mp hp).2 _).mp hholds.program
    · exact (part_iff ha).mpr hholds.arguments
    · exact (part_iff hs).mpr hholds.stdin
    · exact ((part_iff ht).mpr hholds.timeout).imp_left fun he => ⟨he, hbound⟩

/-- Members with other keys are not looked at, and the order of the rest does not matter. -/
theorem ofMembers_eq_of_perm {members others : List (String × Json)}
    (h : (members.filter (·.1 ∈ keys)).Perm (others.filter (·.1 ∈ keys))) :
    ofMembers members = ofMembers others := by
  have hmember : ∀ key ∈ keys, member? key members = member? key others := by
    intro key hkey
    have hknown : ∀ l : List (String × Json), l.filter (fun m => m.1 == key) =
        (l.filter (·.1 ∈ keys)).filter fun m => m.1 == key := by
      intro l
      rw [List.filter_filter]
      apply List.filter_congr
      intro m _
      by_cases hm : m.1 = key
      · simp [hm, hkey]
      · simp [hm]
    have hperm : (members.filter fun m => m.1 == key).Perm (others.filter fun m => m.1 == key) := by
      rw [hknown members, hknown others]
      exact h.filter _
    have hmem : ∀ v, (key, v) ∈ members ↔ (key, v) ∈ others := by
      intro v
      simpa [List.mem_filter] using hperm.mem_iff (a := (key, v))
    apply Option.ext
    intro o
    simp only [member?_eq_some_iff, count_eq_length_filter, hperm.length_eq, hmem]
  simp only [ofMembers, hmember "program" (by decide), hmember "args_template" (by decide),
    hmember "stdin" (by decide), hmember "timeout_sec" (by decide)]

/-! ### Files -/

theorem load_eq_check {files : Files} {path text : String}
    (hfile : files.readOctets path = .ok (Text.Utf8.encode text)) :
    load files path = check path text := by
  have hdecode : Text.Utf8.decode (Text.Utf8.encode text) = some text :=
    Text.Utf8.decode_eq_some_iff.mpr rfl
  simp only [load, Files.readText, hfile, Files.decodeText, hdecode, Option.elim_some]

theorem allBlank_eq_false_iff {s : String} :
    Text.allBlank s = false ↔ ∃ c ∈ s.toList, Text.isBlank c = false := by
  simp [Text.allBlank]

theorem check_eq_ok_iff {path text : String} {h : Spec} :
    check path text = .ok h ↔
      read text = some h ∧ ∃ c ∈ h.program.toList, Text.isBlank c = false := by
  rw [check, ← allBlank_eq_false_iff]
  cases read text with
  | none => simp
  | some k =>
    cases hblank : Text.allBlank k.program <;> simp [hblank]
    · rintro rfl
      exact hblank
    · rintro rfl
      simp [hblank]

theorem read_eq_ofJson {text : String} {v : Json} (h : Json.Document text v) :
    read text = ofJson v := by
  rw [read, h.parse, Option.bind_some]

theorem ofJson_ofFields (members : List (String × Json)) :
    ofJson (.ofFields members) = ofMembers members := by
  have htext : textMembers? (members.map fun m => (Json.textPieces m.1, m.2)) =
      some members := by
    refine (Json.mapM_eq_some_iff ?_).mpr rfl
    rintro ⟨pieces, v⟩ ⟨key, w⟩
    simp only [Option.map_eq_some_iff, Json.text?_eq_some_iff, Prod.mk.injEq]
    constructor
    · rintro ⟨k, hpieces, rfl, rfl⟩
      exact ⟨hpieces, rfl⟩
    · rintro ⟨hpieces, rfl⟩
      exact ⟨key, hpieces, rfl, rfl⟩
  rw [Json.ofFields, ofJson, htext, Option.bind_some]

theorem load_object_eq_ok_iff {files : Files} {path text : String}
    {members : List (String × Json)}
    (hfile : files.readOctets path = .ok (Text.Utf8.encode text))
    (hobject : Json.Document text (.ofFields members)) {h : Spec} :
    load files path = .ok h ↔ ((∀ key ∈ keys, (members.map Prod.fst).count key ≤ 1) ∧
      Holds members h ∧ ∀ n ∈ h.timeout, n ≤ 2 ^ 64 - 1) ∧
      ∃ c ∈ h.program.toList, Text.isBlank c = false := by
  rw [load_eq_check hfile, check_eq_ok_iff, read_eq_ofJson hobject, ofJson_ofFields,
    ofMembers_eq_some_iff hobject.textual.members]

/-- A member that is there at most once has the value it was given. -/
theorem eq_of_once {key : String} {members : List (String × Json)}
    (honce : (members.map Prod.fst).count key ≤ 1) {v w : Json} {omitted : Prop}
    (hw : (key, w) ∈ members ∨ ¬ Occurs key members ∧ omitted) (hv : (key, v) ∈ members) :
    v = w := by
  rcases hw with hw | ⟨habsent, -⟩
  · obtain ⟨o, ho⟩ := exists_member? honce
    have hmem := (member?_eq_some_iff.mp ho).2
    exact Option.some.inj (((hmem v).mp hv).symm.trans ((hmem w).mp hw))
  · exact absurd (occurs_iff.mpr ⟨v, hv⟩) habsent

/-- There is a value for each key: one for what is given, or the default. -/
theorem exists_part {α : Type} {key : String} {members : List (String × Json)}
    {fits : Json → α → Prop} (h : ∀ v, (key, v) ∈ members → ∃ x, fits v x) (default : α) :
    ∃ x, (∃ v, (key, v) ∈ members ∧ fits v x) ∨ ¬ Occurs key members ∧ x = default := by
  by_cases hkey : Occurs key members
  · obtain ⟨v, hv⟩ := occurs_iff.mp hkey
    obtain ⟨x, hx⟩ := h v hv
    exact ⟨x, Or.inl ⟨v, hv, hx⟩⟩
  · exact ⟨default, Or.inr ⟨hkey, rfl⟩⟩

theorem Acceptable.exists_holds {members : List (String × Json)} (h : Acceptable members) :
    ∃ k, (Holds members k ∧ ∀ n ∈ k.timeout, n ≤ 2 ^ 64 - 1) ∧
      ∃ c ∈ k.program.toList, Text.isBlank c = false := by
  obtain ⟨program, hprogram, hblank⟩ := h.program
  obtain ⟨arguments, harguments⟩ := exists_part h.arguments []
  obtain ⟨stdin, hstdin⟩ := exists_part h.stdin false
  have hfits : ∀ v, ("timeout_sec", v) ∈ members →
      ∃ t : Option Nat, v = .ofOption .ofNat t ∧ ∀ n ∈ t, n ≤ 2 ^ 64 - 1 := by
    intro v hv
    rcases h.timeout v hv with rfl | ⟨n, hn, rfl⟩
    · exact ⟨none, rfl, fun n hn => nomatch hn⟩
    · exact ⟨some n, rfl, fun m hm => Option.some.inj hm ▸ hn⟩
  obtain ⟨timeout, htimeout⟩ := exists_part hfits none
  refine ⟨⟨program, arguments, stdin, timeout⟩, ⟨⟨hprogram, ?_, ?_, ?_⟩, ?_⟩, hblank⟩
  · exact harguments.imp_left fun ⟨v, hv, he⟩ => he ▸ hv
  · exact hstdin.imp_left fun ⟨v, hv, he⟩ => he ▸ hv
  · exact htimeout.imp_left fun ⟨v, hv, he, _⟩ => he ▸ hv
  · rcases htimeout with ⟨v, -, -, hbound⟩ | ⟨-, rfl⟩
    · exact hbound
    · exact fun n hn => nomatch hn

/-- An object is loaded exactly when it is acceptable, and then as the spec it holds. Neither the
order of its members nor those with other keys change the result. -/
theorem load_object_acceptance {files : Files} {path text : String}
    {members : List (String × Json)}
    (hfile : files.readOctets path = .ok (Text.Utf8.encode text))
    (hobject : Json.Document text (.ofFields members)) :
    ((∃ h, load files path = .ok h) ↔ Acceptable members) ∧
      (∀ h, load files path = .ok h → Holds members h) ∧
      ∀ (files' : Files) (text' : String) (members' : List (String × Json)),
        files'.readOctets path = .ok (Text.Utf8.encode text') →
        Json.Document text' (.ofFields members') →
        (members.filter (·.1 ∈ keys)).Perm (members'.filter (·.1 ∈ keys)) →
        load files' path = load files path := by
  have hload := fun h => load_object_eq_ok_iff hfile hobject (h := h)
  refine ⟨⟨?_, ?_⟩, ?_, ?_⟩
  · rintro ⟨h, hok⟩
    obtain ⟨⟨honce, hholds, hbound⟩, hblank⟩ := (hload h).mp hok
    refine ⟨honce, ⟨h.program, hholds.program, hblank⟩, ?_, ?_, ?_⟩
    · intro v hv
      exact ⟨_, eq_of_once (honce _ (by decide)) hholds.arguments hv⟩
    · intro v hv
      exact ⟨_, eq_of_once (honce _ (by decide)) hholds.stdin hv⟩
    · intro v hv
      rw [eq_of_once (honce _ (by decide)) hholds.timeout hv]
      cases ht : h.timeout with
      | none => exact Or.inl rfl
      | some n => exact Or.inr ⟨n, hbound n ht, rfl⟩
  · intro haccept
    obtain ⟨h, hholds, hblank⟩ := haccept.exists_holds
    exact ⟨h, (hload h).mpr ⟨⟨haccept.once, hholds⟩, hblank⟩⟩
  · intro h hok
    exact ((hload h).mp hok).1.2.1
  · intro files' text' members' hfile' hobject' hperm
    rw [load_eq_check hfile, load_eq_check hfile', check, check, read_eq_ofJson hobject,
      read_eq_ofJson hobject', ofJson_ofFields, ofJson_ofFields, ofMembers_eq_of_perm hperm]

theorem load_object_acceptance_shuffled :
    let members : List (String × Json) :=
      [("x", .array [.null, .ofFields [("program", .bool true)]]),
        ("timeout_sec", .ofNat (2 ^ 64 - 1)), ("program", .ofText "n")]
    let shuffled : List (String × Json) :=
      [("program", .ofText "n"), ("timeout_sec", .ofNat (2 ^ 64 - 1)), ("y", .null)]
    let text := (Json.ofFields members).render
    let text' := String.ofList (Json.compact (.ofFields shuffled))
    let files : Files := ⟨[(["h"], .file (Text.Utf8.encode text))], []⟩
    let files' : Files := ⟨[(["h"], .file (Text.Utf8.encode text'))], []⟩
    files.readOctets "/h" = .ok (Text.Utf8.encode text) ∧
      Json.Document text (.ofFields members) ∧
      files'.readOctets "/h" = .ok (Text.Utf8.encode text') ∧
      Json.Document text' (.ofFields shuffled) ∧
      (∃ h, load files "/h" = .ok h) ∧ load files' "/h" = load files "/h" := by
  intro members shuffled text text' files files'
  have hfile : files.readOctets "/h" = .ok (Text.Utf8.encode text) := rfl
  have hfile' : files'.readOctets "/h" = .ok (Text.Utf8.encode text') := rfl
  have hinner : ∀ v ∈ [Json.null, .ofFields [("program", .bool true)]], v.Textual := by
    simp only [List.forall_mem_cons]
    exact ⟨.null, .object (List.forall_mem_singleton.mpr (.bool true)),
      List.forall_mem_nil _⟩
  have hobject : Json.Document text (.ofFields members) := by
    apply Json.Textual.document_render
    refine .object ?_
    simp only [members, List.forall_mem_cons]
    exact ⟨.array hinner, Json.textual_ofNat _, .string _,
      List.forall_mem_nil _⟩
  have hobject' : Json.Document text' (.ofFields shuffled) := by
    apply Json.Textual.document_compact
    refine .object ?_
    simp only [shuffled, List.forall_mem_cons]
    exact ⟨.string _, Json.textual_ofNat _, .null, List.forall_mem_nil _⟩
  have haccept : Acceptable members := by
    refine ⟨by decide, ⟨"n", by simp [members], 'n', by decide, by decide⟩, ?_, ?_, ?_⟩
    · intro v hv
      simp [members] at hv
    · intro v hv
      simp [members] at hv
    · intro v hv
      refine Or.inr ⟨2 ^ 64 - 1, le_refl _, ?_⟩
      simpa [members] using hv
  obtain ⟨hiff, -, hsame⟩ := load_object_acceptance hfile hobject
  refine ⟨hfile, hobject, hfile', hobject', hiff.mpr haccept, ?_⟩
  exact hsame files' text' shuffled hfile' hobject' (List.Perm.swap _ _ _)

end HostProbe.Command.Spec
