import HostProbe.Json.Writer
import HostProbe.Proofs.JsonReading

/-!
Writing is well formed: the compact and the indented text of a value spell it, so that reading
them gives the value back.
-/

namespace HostProbe.Json

/-! ### Values without parts -/

theorem numberText_toDigits (n : Nat) : NumberText (Nat.toDigits 10 n) := by
  have h := NumberText.parts (Or.inl rfl) (Text.Decimal.canonical_toDigits n) .absent .absent
  rwa [List.nil_append, List.append_nil, List.append_nil] at h

theorem numberText_minus_toDigits (n : Nat) : NumberText ('-' :: Nat.toDigits 10 n) := by
  have h := NumberText.parts (Or.inr rfl) (Text.Decimal.canonical_toDigits n) .absent .absent
  rwa [List.append_nil, List.append_nil] at h

theorem textual_ofNat (n : Nat) : Textual (.ofNat n) := .number (numberText_toDigits n)

theorem textual_ofInt (n : Int) : Textual (.ofInt n) := by
  cases n with
  | ofNat n => exact textual_ofNat n
  | negSucc n =>
    have h := Textual.number (numberText_minus_toDigits (n + 1))
    rwa [← List.singleton_append, String.ofList_append] at h

theorem textual_ofOption {α : Type} {f : α → Json} (hf : ∀ a, Textual (f a)) (o : Option α) :
    Textual (.ofOption f o) := by
  cases o with
  | none => exact .null
  | some a => exact hf a

theorem textual_array_map {α : Type} {f : α → Json} (hf : ∀ a, Textual (f a)) (l : List α) :
    Textual (.array (l.map f)) := by
  refine .array ?_
  intro v hv
  obtain ⟨a, -, rfl⟩ := List.mem_map.mp hv
  exact hf a

theorem hexDigit_mod (n : Nat) : HexDigit (hexDigit n) (n % 16) :=
  ⟨Nat.mod_lt n (by decide), Or.inl rfl⟩

theorem charText_unitEscape {c : Char} (h : c.toNat < 0x20) : CharText (unitEscape c.toNat) c := by
  have hunit := UnitText.digits (hexDigit_mod (c.toNat / 4096)) (hexDigit_mod (c.toNat / 256))
    (hexDigit_mod (c.toNat / 16)) (hexDigit_mod c.toNat)
  have hvalue : ((c.toNat / 4096 % 16 * 16 + c.toNat / 256 % 16) * 16 + c.toNat / 16 % 16) * 16 +
      c.toNat % 16 = c.toNat := by omega
  rw [hvalue] at hunit
  have hchar := CharText.unit hunit (Or.inl (by omega))
  rwa [Char.ofNat_toNat] at hchar

theorem charText_writeChar (c : Char) : CharText (writeChar c) c := by
  rw [writeChar]
  iterate 7
    split
    · next h => subst h; exact .short (by decide)
  split
  · next h => exact charText_unitEscape h
  · next hquote hslash _ _ _ _ _ hlow => exact .plain (Nat.le_of_not_lt hlow) hquote hslash

theorem charsText_flatMap (l : List Char) :
    CharsText ((l.map Piece.char).flatMap writePiece) l := by
  induction l with
  | nil => exact .nil
  | cons c l ih =>
    rw [List.map_cons, List.flatMap_cons]
    exact .cons (charText_writeChar c) ih

theorem stringText_writeString (s : String) : StringText (writeString (textPieces s)) s :=
  .quoted (charsText_flatMap s.toList)

/-! ### Lists -/

theorem blanks_nil : Blanks [] := fun _ h => nomatch h

theorem Spelled.bare {v : Json} {l : List Char} (h : Spelled (.value v) l) :
    Spelled (.element v) l := by
  have hbare := Spelled.element blanks_nil h blanks_nil
  rwa [List.nil_append, List.append_nil] at hbare

theorem Blanks.append {a b : List Char} (ha : Blanks a) (hb : Blanks b) : Blanks (a ++ b) := by
  intro c hc
  rcases List.mem_append.mp hc with hc | hc
  · exact ha c hc
  · exact hb c hc

theorem Spelled.element_append {v : Json} {l b : List Char} (h : Spelled (.element v) l)
    (hb : Blanks b) : Spelled (.element v) (l ++ b) := by
  cases h with
  | element ha hl hb' =>
    rw [List.append_assoc]
    exact .element ha hl (hb'.append hb)

theorem Spelled.member_append {key : String} {v : Json} {l b : List Char}
    (h : Spelled (.member key v) l) (hb : Blanks b) : Spelled (.member key v) (l ++ b) := by
  cases h with
  | member ha hk hc hl =>
    rw [List.append_assoc, List.cons_append]
    exact .member ha hk hc (hl.element_append hb)

/-- A writer of lists that puts a comma between what `f` writes, with blanks at the end. -/
theorem spelled_elements {f : Json → List Char} {g : List Json → List Char} {b : List Char}
    (hlast : ∀ v, g [v] = f v) (hmore : ∀ v w vs, g (v :: w :: vs) = f v ++ ',' :: g (w :: vs))
    (hb : Blanks b) {v : Json} {vs : List Json}
    (h : ∀ w ∈ v :: vs, Spelled (.element w) (f w)) :
    Spelled (.elements (v :: vs)) (g (v :: vs) ++ b) := by
  induction vs generalizing v with
  | nil =>
    rw [hlast]
    exact .lastElement ((h v List.mem_cons_self).element_append hb)
  | cons w vs ih =>
    rw [hmore, List.append_assoc, List.cons_append]
    exact .moreElements (h v List.mem_cons_self)
      (ih fun u hu => h u (List.mem_cons_of_mem v hu))

/-- The same for members. -/
theorem spelled_members {f : String × Json → List Char} {g : List (String × Json) → List Char}
    {b : List Char} (hlast : ∀ m, g [m] = f m)
    (hmore : ∀ m n ms, g (m :: n :: ms) = f m ++ ',' :: g (n :: ms)) (hb : Blanks b)
    {m : String × Json} {ms : List (String × Json)}
    (h : ∀ n ∈ m :: ms, Spelled (.member n.1 n.2) (f n)) :
    Spelled (.members (m :: ms)) (g (m :: ms) ++ b) := by
  induction ms generalizing m with
  | nil =>
    rw [hlast]
    exact .lastMember ((h m List.mem_cons_self).member_append hb)
  | cons n ms ih =>
    rw [hmore, List.append_assoc, List.cons_append]
    exact .moreMembers (h m List.mem_cons_self)
      (ih fun u hu => h u (List.mem_cons_of_mem m hu))

/-! ### Whole values -/

theorem blanks_newline (depth : Nat) : Blanks (newline depth) := by
  intro c hc
  rcases List.mem_cons.mp hc with rfl | hc
  · decide
  · rw [List.eq_of_mem_replicate hc]
    decide

theorem spelled_compactItems {v : Json} {vs : List Json}
    (h : ∀ w ∈ v :: vs, Spelled (.value w) (compact w)) :
    Spelled (.elements (v :: vs)) (compactItems (v :: vs)) := by
  have hlist := spelled_elements (f := compact) (g := compactItems) (fun v => rfl)
    (fun v w vs => rfl) blanks_nil fun w hw => (h w hw).bare
  rwa [List.append_nil] at hlist

theorem spelled_compactMembers {m : String × Json} {ms : List (String × Json)}
    (h : ∀ n ∈ m :: ms, Spelled (.value n.2) (compact n.2)) :
    Spelled (.members (m :: ms))
      (compactMembers ((m :: ms).map fun (k, v) => (textPieces k, v))) := by
  have hmember : ∀ n ∈ m :: ms,
      Spelled (.member n.1 n.2) (writeString (textPieces n.1) ++ ':' :: compact n.2) := by
    intro n hn
    have hn := Spelled.member blanks_nil (stringText_writeString n.1) blanks_nil (h n hn).bare
    rwa [List.nil_append, List.append_nil] at hn
  have hlist := spelled_members
    (g := fun ms => compactMembers (ms.map fun (k, v) => (textPieces k, v)))
    (fun m => rfl) (fun m n ms => by simp [compactMembers]) blanks_nil hmember
  rwa [List.append_nil] at hlist

theorem Textual.compact {v : Json} (h : Textual v) : Spelled (.value v) (Json.compact v) := by
  induction h with
  | null => exact .null
  | bool b =>
    cases b with
    | true => exact .boolTrue
    | false => exact .boolFalse
  | number hl =>
    rw [Json.compact, String.toList_ofList]
    exact .number hl
  | string s => exact .string (stringText_writeString s)
  | @array vs _ ih =>
    cases vs with
    | nil => exact .emptyArray blanks_nil
    | cons v vs => exact .array (spelled_compactItems ih)
  | @object ms _ ih =>
    cases ms with
    | nil => exact .emptyObject blanks_nil
    | cons m ms => exact .object (spelled_compactMembers ih)

theorem spelled_prettyItems {depth : Nat} {v : Json} {vs : List Json}
    (h : ∀ w ∈ v :: vs, Spelled (.value w) (pretty (depth + 1) w)) :
    Spelled (.elements (v :: vs)) (prettyItems depth (v :: vs) ++ newline depth) := by
  refine spelled_elements (f := fun v => newline (depth + 1) ++ pretty (depth + 1) v)
    (fun v => rfl) (fun v w vs => rfl) (blanks_newline depth) ?_
  intro w hw
  have hw := Spelled.element (blanks_newline (depth + 1)) (h w hw) blanks_nil
  rwa [List.append_nil] at hw

theorem spelled_prettyMembers {depth : Nat} {m : String × Json} {ms : List (String × Json)}
    (h : ∀ n ∈ m :: ms, Spelled (.value n.2) (pretty (depth + 1) n.2)) :
    Spelled (.members (m :: ms))
      (prettyMembers depth ((m :: ms).map fun (k, v) => (textPieces k, v)) ++ newline depth) := by
  refine spelled_members
    (f := fun n => newline (depth + 1) ++ writeString (textPieces n.1) ++ ": ".toList ++
      pretty (depth + 1) n.2)
    (g := fun ms => prettyMembers depth (ms.map fun (k, v) => (textPieces k, v)))
    (fun m => by simp [prettyMembers]) (fun m n ms => by simp [prettyMembers])
    (blanks_newline depth) ?_
  intro n hn
  have hblank : Blanks [' '] := by
    intro c hc
    rw [List.mem_singleton.mp hc]
    decide
  have hn := Spelled.member (blanks_newline (depth + 1)) (stringText_writeString n.1) blanks_nil
    (.element hblank (h n hn) blanks_nil)
  rw [List.append_nil, List.append_nil] at hn
  rwa [List.append_assoc]

theorem Textual.pretty {v : Json} (h : Textual v) (depth : Nat) :
    Spelled (.value v) (Json.pretty depth v) := by
  induction h generalizing depth with
  | null => exact .null
  | bool b =>
    cases b with
    | true => exact .boolTrue
    | false => exact .boolFalse
  | number hl =>
    rw [Json.pretty, String.toList_ofList]
    exact .number hl
  | string s => exact .string (stringText_writeString s)
  | @array vs _ ih =>
    cases vs with
    | nil => exact .emptyArray blanks_nil
    | cons v vs => exact .array (spelled_prettyItems fun w hw => ih w hw (depth + 1))
  | @object ms _ ih =>
    cases ms with
    | nil => exact .emptyObject blanks_nil
    | cons m ms => exact .object (spelled_prettyMembers fun n hn => ih n hn (depth + 1))

theorem Textual.document_compact {v : Json} (h : Textual v) :
    Document (String.ofList (Json.compact v)) v := by
  rw [Document, String.toList_ofList]
  exact h.compact.bare

theorem Textual.document_render {v : Json} (h : Textual v) : Document v.render v := by
  rw [Document, render, String.toList_ofList]
  exact (h.pretty 0).bare

end HostProbe.Json
