import HostProbe.Json.Basic
import HostProbe.Proofs.Decimal

/-!
The grammar of JSON texts, apart from any reader or writer: which characters spell a value. A
string may spell each of its characters in several ways, and blanks may stand around every value
and every key. An escape for half a surrogate pair occurs only together with its other half, so
that every string of the grammar is a text.
-/

namespace HostProbe.Json

def Blanks (l : List Char) : Prop := ∀ c ∈ l, c ∈ [' ', '\t', '\n', '\r']

def Digits (l : List Char) : Prop := l ≠ [] ∧ ∀ c ∈ l, c.isDigit = true

/-- A point and digits, or nothing. -/
inductive Fraction : List Char → Prop where
  | absent : Fraction []
  | digits {l : List Char} : Digits l → Fraction ('.' :: l)

/-- An exponent mark, perhaps a sign, and digits, or nothing. -/
inductive Exponent : List Char → Prop where
  | absent : Exponent []
  | digits {mark : Char} {sign l : List Char} : mark = 'e' ∨ mark = 'E' →
      sign = [] ∨ sign = ['+'] ∨ sign = ['-'] → Digits l → Exponent (mark :: (sign ++ l))

/-- The literals of numbers. -/
inductive NumberText : List Char → Prop where
  | parts {sign whole fraction exponent : List Char} : sign = [] ∨ sign = ['-'] →
      Text.Decimal.Canonical whole → Fraction fraction → Exponent exponent →
      NumberText (sign ++ whole ++ fraction ++ exponent)

/-- A hexadecimal digit, small or capital. -/
def HexDigit (c : Char) (n : Nat) : Prop :=
  n < 16 ∧ (c = Nat.digitChar n ∨ c = (Nat.digitChar n).toUpper)

/-- Four hexadecimal digits. -/
inductive UnitText : List Char → Nat → Prop where
  | digits {a b c d : Char} {p q r s : Nat} : HexDigit a p → HexDigit b q → HexDigit c r →
      HexDigit d s → UnitText [a, b, c, d] (((p * 16 + q) * 16 + r) * 16 + s)

/-- The letters that stand for a character after a backslash. -/
def shortEscapes : List (Char × Char) :=
  [('"', '"'), ('\\', '\\'), ('/', '/'), ('b', '\x08'), ('f', '\x0c'), ('n', '\n'), ('r', '\r'),
    ('t', '\t')]

/-- The spellings of one character of a string. -/
inductive CharText : List Char → Char → Prop where
  | plain {c : Char} : 0x20 ≤ c.toNat → c ≠ '"' → c ≠ '\\' → CharText [c] c
  | short {letter c : Char} : (letter, c) ∈ shortEscapes → CharText ['\\', letter] c
  | unit {l : List Char} {n : Nat} : UnitText l n → n < 0xD800 ∨ 0xDFFF < n →
      CharText ('\\' :: 'u' :: l) (Char.ofNat n)
  | pair {l m : List Char} {high low : Nat} : UnitText l high → 0xD800 ≤ high → high ≤ 0xDBFF →
      UnitText m low → 0xDC00 ≤ low → low ≤ 0xDFFF →
      CharText ('\\' :: 'u' :: l ++ '\\' :: 'u' :: m)
        (Char.ofNat (0x10000 + (high - 0xD800) * 0x400 + (low - 0xDC00)))

inductive CharsText : List Char → List Char → Prop where
  | nil : CharsText [] []
  | cons {a l cs : List Char} {c : Char} : CharText a c → CharsText l cs →
      CharsText (a ++ l) (c :: cs)

/-- A text between quotes. -/
inductive StringText : List Char → String → Prop where
  | quoted {l : List Char} {s : String} : CharsText l s.toList → StringText ('"' :: l ++ ['"']) s

/-- What the grammar has spellings for. An element is a value with blanks around it; members and
elements are what stands between brackets that are not empty. -/
inductive Phrase where
  | value (v : Json)
  | element (v : Json)
  | elements (l : List Json)
  | member (key : String) (v : Json)
  | members (l : List (String × Json))

inductive Spelled : Phrase → List Char → Prop where
  | null : Spelled (.value .null) ['n', 'u', 'l', 'l']
  | boolTrue : Spelled (.value (.bool true)) ['t', 'r', 'u', 'e']
  | boolFalse : Spelled (.value (.bool false)) ['f', 'a', 'l', 's', 'e']
  | number {l : List Char} : NumberText l → Spelled (.value (.number (String.ofList l))) l
  | string {l : List Char} {s : String} : StringText l s → Spelled (.value (.ofText s)) l
  | emptyArray {b : List Char} : Blanks b → Spelled (.value (.array [])) ('[' :: b ++ [']'])
  | array {l : List Char} {vs : List Json} : Spelled (.elements vs) l →
      Spelled (.value (.array vs)) ('[' :: l ++ [']'])
  | emptyObject {b : List Char} : Blanks b →
      Spelled (.value (.ofFields [])) ('\x7b' :: b ++ ['\x7d'])
  | object {l : List Char} {ms : List (String × Json)} : Spelled (.members ms) l →
      Spelled (.value (.ofFields ms)) ('\x7b' :: l ++ ['\x7d'])
  | element {a l b : List Char} {v : Json} : Blanks a → Spelled (.value v) l → Blanks b →
      Spelled (.element v) (a ++ l ++ b)
  | lastElement {l : List Char} {v : Json} : Spelled (.element v) l → Spelled (.elements [v]) l
  | moreElements {l r : List Char} {v : Json} {vs : List Json} : Spelled (.element v) l →
      Spelled (.elements vs) r → Spelled (.elements (v :: vs)) (l ++ ',' :: r)
  | member {a k b l : List Char} {key : String} {v : Json} : Blanks a → StringText k key →
      Blanks b → Spelled (.element v) l → Spelled (.member key v) (a ++ k ++ b ++ ':' :: l)
  | lastMember {l : List Char} {key : String} {v : Json} : Spelled (.member key v) l →
      Spelled (.members [(key, v)]) l
  | moreMembers {l r : List Char} {key : String} {v : Json} {ms : List (String × Json)} :
      Spelled (.member key v) l → Spelled (.members ms) r →
      Spelled (.members ((key, v) :: ms)) (l ++ ',' :: r)

/-- The text is a document that spells the value. -/
def Document (s : String) (v : Json) : Prop := Spelled (.element v) s.toList

/-- Values whose strings are texts and whose numbers have literals of the grammar. -/
inductive Textual : Json → Prop where
  | null : Textual .null
  | bool (b : Bool) : Textual (.bool b)
  | number {l : List Char} : NumberText l → Textual (.number (String.ofList l))
  | string (s : String) : Textual (.ofText s)
  | array {vs : List Json} : (∀ v ∈ vs, Textual v) → Textual (.array vs)
  | object {ms : List (String × Json)} : (∀ m ∈ ms, Textual m.2) → Textual (.ofFields ms)

theorem NumberText.opens {l : List Char} (h : NumberText l) :
    ∃ c r, l = c :: r ∧ (c = '-' ∨ c.isDigit = true) := by
  obtain ⟨hsign, hwhole, -, -⟩ := h
  obtain ⟨c, r, rfl, hc, -⟩ := hwhole.opens
  rcases hsign with rfl | rfl
  · exact ⟨c, _, rfl, Or.inr hc⟩
  · exact ⟨'-', _, rfl, Or.inl rfl⟩

theorem Textual.members {ms : List (String × Json)} (h : Textual (.ofFields ms)) :
    ∀ m ∈ ms, Textual m.2 := by
  generalize he : ofFields ms = v at h
  cases h with
  | @object ns hns =>
    intro m hm
    have hmap : (textPieces m.1, m.2) ∈ ns.map fun n => (textPieces n.1, n.2) := by
      rw [← Json.object.inj he]
      exact List.mem_map_of_mem (f := fun n => (textPieces n.1, n.2)) hm
    obtain ⟨n, hn, hpair⟩ := List.mem_map.mp hmap
    rw [← (Prod.mk.inj hpair).2]
    exact hns n hn
  | _ => cases he

theorem Spelled.textual {p : Phrase} {l : List Char} (h : Spelled p l) :
    match p with
    | .value v | .element v | .member _ v => Textual v
    | .elements vs => ∀ v ∈ vs, Textual v
    | .members ms => ∀ m ∈ ms, Textual m.2 := by
  induction h with
  | null => exact .null
  | boolTrue => exact .bool true
  | boolFalse => exact .bool false
  | number hl => exact .number hl
  | @string l s _ => exact .string s
  | emptyArray => exact .array fun v hv => absurd hv List.not_mem_nil
  | array _ ih => exact .array ih
  | emptyObject => exact .object fun m hm => absurd hm List.not_mem_nil
  | object _ ih => exact .object ih
  | element _ _ _ ih => exact ih
  | lastElement _ ih => exact List.forall_mem_singleton.mpr ih
  | moreElements _ _ ih ihs => exact List.forall_mem_cons.mpr ⟨ih, ihs⟩
  | member _ _ _ _ ih => exact ih
  | lastMember _ ih => exact List.forall_mem_singleton.mpr ih
  | moreMembers _ _ ih ihs => exact List.forall_mem_cons.mpr ⟨ih, ihs⟩

theorem Document.textual {s : String} {v : Json} (h : Document s v) : Textual v :=
  Spelled.textual h

/-- A literal of digits only has no sign, fraction or exponent. -/
theorem NumberText.canonical {l : List Char} (h : NumberText l)
    (hdigits : ∀ c ∈ l, c.isDigit = true) : Text.Decimal.Canonical l := by
  cases h with
  | @parts sign whole fraction exponent hsign hwhole hfraction hexponent =>
    have hplain : sign = [] := by
      rcases hsign with rfl | rfl
      · rfl
      · exact absurd (hdigits '-' (by simp)) (by decide)
    have hwithout : fraction = [] := by
      cases hfraction with
      | absent => rfl
      | digits => exact absurd (hdigits '.' (by simp)) (by decide)
    have hnone : exponent = [] := by
      cases hexponent with
      | absent => rfl
      | digits hmark =>
        rcases hmark with rfl | rfl
        · exact absurd (hdigits 'e' (by simp)) (by decide)
        · exact absurd (hdigits 'E' (by simp)) (by decide)
    subst hplain hwithout hnone
    rwa [List.nil_append, List.append_nil, List.append_nil]

theorem NumberText.digits?_eq_some_iff {l : List Char} (h : NumberText l) {n : Nat} :
    Text.Decimal.digits? l = some n ↔ l = Nat.toDigits 10 n := by
  constructor
  · intro hread
    obtain ⟨⟨-, hdigits⟩, hvalue⟩ := Text.Decimal.digits?_eq_some_iff.mp hread
    obtain ⟨m, rfl⟩ := Text.Decimal.canonical_iff.mp (h.canonical hdigits)
    rw [← hvalue, Text.Decimal.value_toDigits]
  · rintro rfl
    exact Text.Decimal.digits?_toDigits n

/-- Reading each member of a list by the inverse of `g`. -/
theorem mapM_eq_some_iff {α β : Type} {f : α → Option β} {g : β → α}
    (hf : ∀ a b, f a = some b ↔ a = g b) {l : List α} {m : List β} :
    l.mapM f = some m ↔ l = m.map g := by
  induction l generalizing m with
  | nil =>
    rw [List.mapM_nil, Option.pure_def, Option.some.injEq, eq_comm, List.nil_eq,
      List.map_eq_nil_iff]
  | cons a l ih =>
    rw [List.mapM_cons]
    simp only [Option.bind_eq_bind, Option.bind_eq_some_iff, hf, ih, Option.pure_def,
      Option.some.injEq]
    constructor
    · rintro ⟨b, rfl, m, rfl, rfl⟩
      rfl
    · intro h
      cases m with
      | nil => cases h
      | cons b m =>
        obtain ⟨ha, hl⟩ := List.cons.inj h
        exact ⟨b, ha, m, hl, rfl⟩

theorem mapM_map_of_inverse {α β : Type} {f : α → Option β} {g : β → α} {l : List β}
    (hf : ∀ b ∈ l, f (g b) = some b) : (l.map g).mapM f = some l := by
  induction l with
  | nil => rfl
  | cons b l ih =>
    obtain ⟨hb, hl⟩ := List.forall_mem_cons.mp hf
    simp [List.mapM_cons, hb, ih hl]

theorem text?_eq_some_iff {pieces : List Piece} {s : String} :
    text? pieces = some s ↔ pieces = textPieces s := by
  have hchar : ∀ (p : Piece) (c : Char), p.char? = some c ↔ p = .char c := by
    intro p c
    cases p <;> simp [Piece.char?]
  rw [text?, textPieces, Option.map_eq_some_iff]
  simp only [mapM_eq_some_iff hchar]
  constructor
  · rintro ⟨l, rfl, rfl⟩
    rw [String.toList_ofList]
  · rintro rfl
    exact ⟨s.toList, rfl, String.ofList_toList⟩

end HostProbe.Json
