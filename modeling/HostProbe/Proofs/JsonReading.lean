import HostProbe.Json.Reader
import HostProbe.Proofs.JsonGrammar
import Mathlib.Data.List.DropRight
import Mathlib.Data.List.TakeDrop
import Mathlib.Data.List.TakeWhile

/-!
Reading what the grammar derives: every text of the grammar is read, and as the value it spells.
The reader takes the longest number and skips all blanks, so each lemma says what may follow the
characters it is about.
-/

namespace HostProbe.Json

/-- The class `p` does not go on here. -/
def Stops (p : Char → Bool) (l : List Char) : Prop := ∀ c, l.head? = some c → p c = false

/-- What may follow an element: the end, a comma or a closing bracket. -/
def Closing (l : List Char) : Prop := ∀ c, l.head? = some c → c ∈ [',', ']', '\x7d']

/-- What may follow a value: blanks and then what may follow an element. -/
def Boundary (l : List Char) : Prop := ∃ b r, Blanks b ∧ Closing r ∧ l = b ++ r

theorem stops_cons {p : Char → Bool} {c : Char} (h : p c = false) (l : List Char) :
    Stops p (c :: l) := by
  intro d hd
  obtain rfl := Option.some.inj hd
  exact h

theorem closing_cons {c : Char} (h : c ∈ [',', ']', '\x7d']) (l : List Char) :
    Closing (c :: l) := by
  intro d hd
  obtain rfl := Option.some.inj hd
  exact h

theorem closing_nil : Closing [] := fun _ h => nomatch h

/-! ### Blanks -/

theorem isSpace_of_mem {c : Char} (h : c ∈ [' ', '\t', '\n', '\r']) : isSpace c = true := by
  have hall : [' ', '\t', '\n', '\r'].all isSpace = true := by decide
  exact List.all_eq_true.mp hall c h

theorem skipSpace_append {b : List Char} (h : Blanks b) (l : List Char) :
    skipSpace (b ++ l) = skipSpace l :=
  List.dropWhile_append_of_pos fun c hc => isSpace_of_mem (h c hc)

theorem skipSpace_cons {c : Char} (h : isSpace c = false) (l : List Char) :
    skipSpace (c :: l) = c :: l :=
  List.dropWhile_cons_of_neg (by simp [h])

theorem skipSpace_closing {l : List Char} (h : Closing l) : skipSpace l = l := by
  cases l with
  | nil => rfl
  | cons c l =>
    have hnone : [',', ']', '\x7d'].any isSpace = false := by decide
    exact skipSpace_cons (Bool.eq_false_iff.mpr (List.any_eq_false.mp hnone c (h c rfl))) l

theorem skipSpace_skipSpace (l : List Char) : skipSpace (skipSpace l) = skipSpace l :=
  List.dropWhile_idempotent isSpace l

theorem Boundary.stops {p : Char → Bool} {l : List Char} (h : Boundary l)
    (hp : [' ', '\t', '\n', '\r', ',', ']', '\x7d'].any p = false) : Stops p l := by
  obtain ⟨b, r, hb, hr, rfl⟩ := h
  intro c hc
  apply Bool.eq_false_iff.mpr
  apply List.any_eq_false.mp hp
  cases b with
  | nil => exact List.mem_append_right [' ', '\t', '\n', '\r'] (hr c hc)
  | cons d b =>
    obtain rfl := Option.some.inj hc
    exact List.mem_append_left [',', ']', '\x7d'] (hb d List.mem_cons_self)

/-! ### Numbers -/

theorem takeDigits_append {l r : List Char} (hl : ∀ c ∈ l, c.isDigit = true)
    (hr : Stops Char.isDigit r) : takeDigits (l ++ r) = (l, r) := by
  rw [takeDigits, List.span_eq_takeWhile_dropWhile, List.takeWhile_append_of_pos hl,
    List.dropWhile_append_of_pos hl]
  cases r with
  | nil => rw [List.takeWhile_nil, List.append_nil, List.dropWhile_nil]
  | cons c r => simp [hr c rfl]

theorem readWhole_append {l r : List Char} (hl : Text.Decimal.Canonical l)
    (hr : Stops Char.isDigit r) : readWhole (l ++ r) = some (l, r) := by
  cases hl with
  | zero =>
    rw [readWhole, takeDigits_append (List.forall_mem_singleton.mpr rfl) hr]
    rfl
  | @digits c l hc hne hl =>
    have hall : ∀ d ∈ c :: l, d.isDigit = true := by
      intro d hd
      rcases List.mem_cons.mp hd with rfl | hd
      · exact hc
      · exact hl d hd
    rw [readWhole, takeDigits_append hall hr]
    split
    · next h => cases h
    · next h => exact absurd (List.cons.inj (Prod.mk.inj h).1).1 hne
    · next h => exact absurd (List.cons.inj (Prod.mk.inj h).1).1 hne
    · next h => rw [h]

theorem readFraction_append {l r : List Char} (hl : Fraction l) (hr : Stops Char.isDigit r)
    (hpoint : Stops (· == '.') r) : readFraction (l ++ r) = some (l, r) := by
  cases hl with
  | absent =>
    rw [List.nil_append, readFraction.eq_2]
    rintro r rfl
    exact absurd (hpoint '.' rfl) (by decide)
  | @digits l hl =>
    rw [List.cons_append, readFraction, takeDigits_append hl.2 hr]
    split
    · next h => exact absurd (Prod.mk.inj h).1 hl.1
    · next h =>
      obtain ⟨rfl, rfl⟩ := Prod.mk.inj h
      rfl

theorem readExponent_append {l r : List Char} (hl : Exponent l) (hr : Stops Char.isDigit r)
    (hmark : Stops (fun c => c = 'e' || c = 'E') r) : readExponent (l ++ r) = some (l, r) := by
  cases hl with
  | absent =>
    cases r with
    | nil => rfl
    | cons c r =>
      have hc := hmark c rfl
      simp only [List.nil_append, readExponent, hc, Bool.false_eq_true, if_false]
  | @digits mark sign l hm hs hl =>
    have hmark : (mark = 'e' || mark = 'E') = true := by simpa using hm
    obtain ⟨c, l, rfl⟩ := List.exists_cons_of_ne_nil hl.1
    have hc := hl.2 c List.mem_cons_self
    have hdigits := takeDigits_append hl.2 hr
    rcases hs with rfl | rfl | rfl
    · have hplus : c ≠ '+' := by rintro rfl; cases hc
      have hminus : c ≠ '-' := by rintro rfl; cases hc
      simp only [List.cons_append, List.nil_append, readExponent, hmark, if_true]
      split
      · next h => exact absurd (List.cons.inj h).1 hplus
      · next h => exact absurd (List.cons.inj h).1 hminus
      · rw [← List.cons_append, hdigits]
    · simp only [List.cons_append, List.nil_append, readExponent, hmark, if_true]
      rw [← List.cons_append, hdigits]
    · simp only [List.cons_append, List.nil_append, readExponent, hmark, if_true]
      rw [← List.cons_append, hdigits]

theorem Fraction.stops {p : Char → Bool} {l r : List Char} (hl : Fraction l) (hr : Stops p r)
    (hpoint : p '.' = false) : Stops p (l ++ r) := by
  cases hl with
  | absent => exact hr
  | digits => exact stops_cons hpoint _

theorem Exponent.stops {p : Char → Bool} {l r : List Char} (hl : Exponent l) (hr : Stops p r)
    (hsmall : p 'e' = false) (hcapital : p 'E' = false) : Stops p (l ++ r) := by
  cases hl with
  | absent => exact hr
  | digits hmark =>
    rcases hmark with rfl | rfl
    · exact stops_cons hsmall _
    · exact stops_cons hcapital _

theorem NumberText.readNumber {l r : List Char} (hl : NumberText l) (hr : Boundary r) :
    Json.readNumber (l ++ r) = some (.number (String.ofList l), r) := by
  cases hl with
  | @parts sign whole fraction exponent hsign hwhole hfraction hexponent =>
    have hdigit : Stops Char.isDigit (exponent ++ r) :=
      hexponent.stops (hr.stops (by decide)) (by decide) (by decide)
    have hpoint : Stops (· == '.') (exponent ++ r) :=
      hexponent.stops (hr.stops (by decide)) (by decide) (by decide)
    have hfirst := readWhole_append hwhole (hfraction.stops hdigit (by decide))
    have hsecond := readFraction_append hfraction hdigit hpoint
    have hthird := readExponent_append hexponent (hr.stops (by decide)) (hr.stops (by decide))
    simp only [List.append_assoc]
    rcases hsign with rfl | rfl
    · -- the first digit is no minus sign
      have hunsigned : ∀ m, [] ++ (whole ++ (fraction ++ (exponent ++ r))) = '-' :: m → False := by
        obtain ⟨c, w, rfl, hc, -⟩ := hwhole.opens
        intro m h
        obtain rfl := (List.cons.inj h).1
        cases hc
      rw [Json.readNumber.eq_2 _ hunsigned]
      simp only [List.nil_append, hfirst, hsecond, hthird, Option.bind_eq_bind, Option.bind_some,
        Option.pure_def, List.append_assoc]
    · simp only [Json.readNumber, List.cons_append, List.nil_append, hfirst, hsecond, hthird,
        Option.bind_eq_bind, Option.bind_some, Option.pure_def, List.append_assoc]

/-! ### Strings -/

theorem hexValue?_of_hexDigit {c : Char} {n : Nat} (h : HexDigit c n) : hexValue? c = some n := by
  have hall : ∀ n < 16, hexValue? (Nat.digitChar n) = some n ∧
      hexValue? (Nat.digitChar n).toUpper = some n := by decide
  obtain ⟨hn, rfl | rfl⟩ := h
  · exact (hall n hn).1
  · exact (hall n hn).2

/-- Four hexadecimal digits after a backslash and the letter u add their unit. -/
theorem UnitText.readString {l : List Char} {n : Nat} (h : UnitText l n) (done : List Piece)
    (r : List Char) :
    Json.readString done ('\\' :: 'u' :: l ++ r) = Json.readString (addUnit n done) r := by
  obtain ⟨ha, hb, hc, hd⟩ := h
  simp only [List.cons_append, List.nil_append]
  rw [Json.readString.eq_3, unit?, hexValue?_of_hexDigit ha, hexValue?_of_hexDigit hb,
    hexValue?_of_hexDigit hc, hexValue?_of_hexDigit hd]
  rfl

theorem addUnit_char {n : Nat} (h : n < 0xD800 ∨ 0xDFFF < n) (done : List Piece) :
    addUnit n done = .char (Char.ofNat n) :: done := by
  have hlow : (0xDC00 ≤ n && n ≤ 0xDFFF) = false := by
    simp only [Bool.and_eq_false_iff, decide_eq_false_iff_not]
    omega
  have hhigh : (0xD800 ≤ n && n ≤ 0xDBFF) = false := by
    simp only [Bool.and_eq_false_iff, decide_eq_false_iff_not]
    omega
  simp only [addUnit, hlow, hhigh, Bool.false_eq_true, if_false]

theorem addUnit_pair {high low : Nat} (hh : 0xD800 ≤ high) (hh' : high ≤ 0xDBFF)
    (hl : 0xDC00 ≤ low) (hl' : low ≤ 0xDFFF) (done : List Piece) :
    addUnit low (addUnit high done) =
      .char (Char.ofNat (0x10000 + (high - 0xD800) * 0x400 + (low - 0xDC00))) :: done := by
  have hfirst : (0xDC00 ≤ high && high ≤ 0xDFFF) = false := by
    simp only [Bool.and_eq_false_iff, decide_eq_false_iff_not]
    omega
  simp [addUnit, hfirst, hh, hh', hl, hl']

/-- Whatever its spelling, a character is added to what was read. -/
theorem CharText.readString {l : List Char} {c : Char} (h : CharText l c) (done : List Piece)
    (r : List Char) :
    Json.readString done (l ++ r) = Json.readString (.char c :: done) r := by
  cases h with
  | plain hlow hquote hslash =>
    rw [List.singleton_append, Json.readString.eq_5 _ _ _ hquote
      (fun _ _ _ _ _ h => absurd h hslash) (fun _ _ h => absurd h hslash)]
    simp [Nat.not_lt.mpr hlow, hslash]
  | @short letter c hmem =>
    have hall : ∀ e ∈ shortEscapes, e.1 ≠ 'u' ∧ escaped? e.1 = some e.2 := by decide
    obtain ⟨hletter, hescaped⟩ := hall _ hmem
    simp only [List.cons_append, List.nil_append]
    rw [Json.readString.eq_4 _ _ _ (fun _ _ _ _ _ h => absurd h hletter), hescaped]
  | unit hunit hn => rw [hunit.readString, addUnit_char hn]
  | pair hfirst hh hh' hsecond hl hl' =>
    rw [List.append_assoc, hfirst.readString, hsecond.readString, addUnit_pair hh hh' hl hl']

theorem CharsText.readString {l cs : List Char} (h : CharsText l cs) (done : List Piece)
    (r : List Char) :
    Json.readString done (l ++ '"' :: r) = some (done.reverse ++ cs.map .char, r) := by
  induction h generalizing done with
  | nil => rw [List.nil_append, Json.readString.eq_2, List.map_nil, List.append_nil]
  | cons hc _ ih =>
    rw [List.append_assoc, hc.readString, ih, List.reverse_cons, List.append_assoc,
      List.map_cons, List.singleton_append]

theorem StringText.readString {l : List Char} {s : String} (h : StringText l s) (r : List Char) :
    ∃ m, l ++ r = '"' :: m ∧ Json.readString [] m = some (textPieces s, r) := by
  obtain ⟨hl⟩ := h
  refine ⟨_, List.append_assoc .. , ?_⟩
  exact hl.readString [] r

/-! ### Steps of the reader -/

theorem readValue_skipSpace (fuel : Nat) (l : List Char) :
    readValue fuel (skipSpace l) = readValue fuel l := by
  cases fuel with
  | zero => rfl
  | succ fuel => rw [readValue, readValue, skipSpace_skipSpace]

theorem readItems_skipSpace (fuel : Nat) (l : List Char) :
    readItems fuel (skipSpace l) = readItems fuel l := by
  cases fuel with
  | zero => rfl
  | succ fuel => rw [readItems, readItems, readValue_skipSpace]

theorem readMembers_skipSpace (fuel : Nat) (l : List Char) :
    readMembers fuel (skipSpace l) = readMembers fuel l := by
  cases fuel with
  | zero => rfl
  | succ fuel => rw [readMembers, readMembers, skipSpace_skipSpace]

theorem numeral_ne {c d : Char} (hc : c = '-' ∨ c.isDigit = true) (hminus : d ≠ '-')
    (hdigit : d.isDigit = false) : c ≠ d := by
  rintro rfl
  rcases hc with hc | hc
  · exact hminus hc
  · rw [hc] at hdigit
    cases hdigit

theorem isSpace_numeral {c : Char} (hc : c = '-' ∨ c.isDigit = true) : isSpace c = false := by
  simp only [isSpace, Bool.or_eq_false_iff, decide_eq_false_iff_not]
  refine ⟨⟨⟨?_, ?_⟩, ?_⟩, ?_⟩
  all_goals exact numeral_ne hc (by decide) (by decide)

theorem readValue_number (fuel : Nat) {c : Char} (hc : c = '-' ∨ c.isDigit = true)
    (l : List Char) : readValue (fuel + 1) (c :: l) = readNumber (c :: l) := by
  rw [readValue, skipSpace_cons (isSpace_numeral hc)]
  split
  iterate 6
    next h => exact absurd (List.cons.inj h).1 (numeral_ne hc (by decide) (by decide))
  rfl

theorem readValue_string (fuel : Nat) {l r : List Char} {pieces : List Piece}
    (h : readString [] l = some (pieces, r)) :
    readValue (fuel + 1) ('"' :: l) = some (.string pieces, r) := by
  rw [readValue, skipSpace_cons (by decide)]
  simp only [h, Option.map_some]

theorem readValue_emptyArray (fuel : Nat) {l r : List Char} (h : skipSpace l = ']' :: r) :
    readValue (fuel + 1) ('[' :: l) = some (.array [], r) := by
  rw [readValue, skipSpace_cons (by decide)]
  simp only [h]

theorem readValue_array (fuel : Nat) {l r : List Char} {vs : List Json}
    (hopen : Stops (· == ']') (skipSpace l)) (h : readItems fuel l = some (vs, r)) :
    readValue (fuel + 1) ('[' :: l) = some (.array vs, r) := by
  rw [readValue, skipSpace_cons (by decide)]
  simp only
  split
  · next m hm => exact absurd (hopen ']' (by rw [hm]; rfl)) (by decide)
  · rw [readItems_skipSpace, h]
    rfl

theorem readValue_emptyObject (fuel : Nat) {l r : List Char} (h : skipSpace l = '\x7d' :: r) :
    readValue (fuel + 1) ('\x7b' :: l) = some (.object [], r) := by
  rw [readValue, skipSpace_cons (by decide)]
  simp only [h]

theorem readValue_object (fuel : Nat) {l r : List Char} {ms : List (List Piece × Json)}
    (hopen : Stops (· == '\x7d') (skipSpace l)) (h : readMembers fuel l = some (ms, r)) :
    readValue (fuel + 1) ('\x7b' :: l) = some (.object ms, r) := by
  rw [readValue, skipSpace_cons (by decide)]
  simp only
  split
  · next m hm => exact absurd (hopen '\x7d' (by rw [hm]; rfl)) (by decide)
  · rw [readMembers_skipSpace, h]
    rfl

theorem readItems_last (fuel : Nat) {l m r : List Char} {v : Json}
    (h : readValue fuel l = some (v, m)) (hend : skipSpace m = ']' :: r) :
    readItems (fuel + 1) l = some ([v], r) := by
  simp only [readItems, h, hend]

theorem readItems_more (fuel : Nat) {l m r rest : List Char} {v : Json} {vs : List Json}
    (h : readValue fuel l = some (v, m)) (hcomma : skipSpace m = ',' :: r)
    (hvs : readItems fuel r = some (vs, rest)) :
    readItems (fuel + 1) l = some (v :: vs, rest) := by
  simp only [readItems, h, hcomma, hvs, Option.map_some]

/-- One member is read with this fuel, and the reader then stands before `rest`. -/
def ReadsMember (fuel : Nat) (key : List Piece) (v : Json) (l rest : List Char) : Prop :=
  ∃ a b c d, skipSpace l = '"' :: a ∧ readString [] a = some (key, b) ∧ skipSpace b = ':' :: c ∧
    readValue fuel c = some (v, d) ∧ skipSpace d = rest

theorem readMembers_last {fuel : Nat} {key : List Piece} {v : Json} {l r : List Char}
    (h : ReadsMember fuel key v l ('\x7d' :: r)) :
    readMembers (fuel + 1) l = some ([(key, v)], r) := by
  obtain ⟨a, b, c, d, ha, hb, hc, hd, hend⟩ := h
  simp only [readMembers, ha, hb, hc, hd, hend]

theorem readMembers_more {fuel : Nat} {key : List Piece} {v : Json} {l r rest : List Char}
    {ms : List (List Piece × Json)} (h : ReadsMember fuel key v l (',' :: r))
    (hms : readMembers fuel r = some (ms, rest)) :
    readMembers (fuel + 1) l = some ((key, v) :: ms, rest) := by
  obtain ⟨a, b, c, d, ha, hb, hc, hd, hcomma⟩ := h
  simp only [readMembers, ha, hb, hc, hd, hcomma, hms, Option.map_some]

/-! ### Whole texts -/

/-- A value begins with a character that is neither a blank nor the end of a list. -/
theorem Spelled.value_opens {v : Json} {l : List Char} (h : Spelled (.value v) l) :
    ∃ c m, l = c :: m ∧ isSpace c = false ∧ c ≠ ']' := by
  cases h with
  | number hl =>
    obtain ⟨c, m, rfl, hc⟩ := hl.opens
    exact ⟨c, m, rfl, isSpace_numeral hc, numeral_ne hc (by decide) (by decide)⟩
  | string hl =>
    obtain ⟨_⟩ := hl
    exact ⟨_, _, rfl, by decide, by decide⟩
  | _ => exact ⟨_, _, rfl, by decide, by decide⟩

theorem Spelled.element_length_pos {v : Json} {l : List Char} (h : Spelled (.element v) l) :
    0 < l.length := by
  cases h with
  | element ha hl hb =>
    obtain ⟨c, m, rfl, -, -⟩ := hl.value_opens
    simp only [List.length_append, List.length_cons]
    omega

theorem Spelled.member_length_pos {key : String} {v : Json} {l : List Char}
    (h : Spelled (.member key v) l) : 0 < l.length := by
  cases h with
  | member =>
    simp only [List.length_append, List.length_cons]
    omega

theorem Spelled.element_opens {v : Json} {l : List Char} (h : Spelled (.element v) l)
    (r : List Char) : Stops (· == ']') (skipSpace (l ++ r)) := by
  cases h with
  | element ha hl _ =>
    obtain ⟨c, m, rfl, hspace, hc⟩ := hl.value_opens
    rw [List.append_assoc, List.append_assoc, skipSpace_append ha, List.cons_append,
      skipSpace_cons hspace]
    exact stops_cons (p := (· == ']')) (beq_false_of_ne hc) _

theorem Spelled.elements_opens {vs : List Json} {l : List Char} (h : Spelled (.elements vs) l)
    (r : List Char) : Stops (· == ']') (skipSpace (l ++ r)) := by
  cases h with
  | lastElement hl => exact hl.element_opens r
  | moreElements hl _ =>
    rw [List.append_assoc]
    exact hl.element_opens _

theorem Spelled.member_opens {key : String} {v : Json} {l : List Char}
    (h : Spelled (.member key v) l) (r : List Char) : Stops (· == '\x7d') (skipSpace (l ++ r)) := by
  cases h with
  | member ha hk _ _ =>
    obtain ⟨_⟩ := hk
    simp only [List.append_assoc, List.cons_append]
    rw [skipSpace_append ha, skipSpace_cons (by decide)]
    exact stops_cons (by decide) _

theorem Spelled.members_opens {ms : List (String × Json)} {l : List Char}
    (h : Spelled (.members ms) l) (r : List Char) : Stops (· == '\x7d') (skipSpace (l ++ r)) := by
  cases h with
  | lastMember hl => exact hl.member_opens r
  | moreMembers hl _ =>
    rw [List.append_assoc]
    exact hl.member_opens _

/-- What reading a phrase means. Two units of fuel for each character are enough: a level of
nesting takes two and has two brackets, a further element takes one and has a comma. -/
def Reads (l : List Char) : Phrase → Prop
  | .value v => ∀ fuel r, 2 * l.length ≤ fuel + 2 → Boundary r →
      readValue (fuel + 1) (l ++ r) = some (v, r)
  | .element v => ∀ fuel r, 2 * l.length ≤ fuel + 2 → Closing r →
      ∃ m, readValue (fuel + 1) (l ++ r) = some (v, m) ∧ skipSpace m = r
  | .elements vs => ∀ fuel r, 2 * l.length ≤ fuel + 1 →
      readItems (fuel + 1) (l ++ ']' :: r) = some (vs, r)
  | .member key v => ∀ fuel r, 2 * l.length ≤ fuel + 2 → Closing r →
      ReadsMember (fuel + 1) (textPieces key) v (l ++ r) r
  | .members ms => ∀ fuel r, 2 * l.length ≤ fuel + 1 →
      readMembers (fuel + 1) (l ++ '\x7d' :: r) = some (ms.map fun (k, v) => (textPieces k, v), r)

theorem Spelled.reads {p : Phrase} {l : List Char} (h : Spelled p l) : Reads l p := by
  induction h with
  | null => intro fuel r _ _; rfl
  | boolTrue => intro fuel r _ _; rfl
  | boolFalse => intro fuel r _ _; rfl
  | number hl =>
    intro fuel r _ hr
    obtain ⟨c, m, rfl, hc⟩ := hl.opens
    rw [List.cons_append, readValue_number fuel hc, ← List.cons_append, hl.readNumber hr]
  | string hl =>
    intro fuel r _ _
    obtain ⟨m, hm, hread⟩ := hl.readString r
    rw [hm, readValue_string fuel hread, ofText]
  | emptyArray hb =>
    intro fuel r _ _
    rw [List.cons_append, List.cons_append, List.append_assoc]
    apply readValue_emptyArray
    rw [skipSpace_append hb]
    exact skipSpace_cons (by decide) r
  | array hl ih =>
    intro fuel r hfuel _
    simp only [List.length_append, List.length_cons, List.length_nil] at hfuel
    obtain ⟨n, rfl⟩ : ∃ n, fuel = n + 1 := ⟨fuel - 1, by omega⟩
    rw [List.cons_append, List.cons_append, List.append_assoc]
    apply readValue_array
    · exact hl.elements_opens _
    · exact ih n r (by omega)
  | emptyObject hb =>
    intro fuel r _ _
    rw [List.cons_append, List.cons_append, List.append_assoc]
    apply readValue_emptyObject
    rw [skipSpace_append hb]
    exact skipSpace_cons (by decide) r
  | object hl ih =>
    intro fuel r hfuel _
    simp only [List.length_append, List.length_cons, List.length_nil] at hfuel
    obtain ⟨n, rfl⟩ : ∃ n, fuel = n + 1 := ⟨fuel - 1, by omega⟩
    rw [List.cons_append, List.cons_append, List.append_assoc]
    apply readValue_object
    · exact hl.members_opens _
    · exact ih n r (by omega)
  | @element a l b v ha _ hb ih =>
    intro fuel r hfuel hr
    simp only [List.length_append] at hfuel
    refine ⟨b ++ r, ?_, ?_⟩
    · rw [List.append_assoc, List.append_assoc, ← readValue_skipSpace, skipSpace_append ha,
        readValue_skipSpace]
      exact ih fuel (b ++ r) (by omega) ⟨b, r, hb, hr, rfl⟩
    · rw [skipSpace_append hb, skipSpace_closing hr]
  | lastElement hl ih =>
    intro fuel r hfuel
    have hpos := hl.element_length_pos
    obtain ⟨n, rfl⟩ : ∃ n, fuel = n + 1 := ⟨fuel - 1, by omega⟩
    obtain ⟨m, hread, hm⟩ := ih n (']' :: r) (by omega) (closing_cons (by decide) r)
    exact readItems_last (n + 1) hread hm
  | @moreElements l m v vs _ _ ih ihs =>
    intro fuel r hfuel
    simp only [List.length_append, List.length_cons] at hfuel
    obtain ⟨n, rfl⟩ : ∃ n, fuel = n + 1 := ⟨fuel - 1, by omega⟩
    obtain ⟨d, hread, hd⟩ := ih n (',' :: (m ++ ']' :: r)) (by omega) (closing_cons (by decide) _)
    rw [List.append_assoc, List.cons_append]
    exact readItems_more (n + 1) hread hd (ihs n r (by omega))
  | @member a k b l key v ha hk hb _ ih =>
    intro fuel r hfuel hr
    simp only [List.length_append, List.length_cons] at hfuel
    obtain ⟨m, hm, hstring⟩ := hk.readString (b ++ ':' :: (l ++ r))
    obtain ⟨d, hread, hd⟩ := ih fuel r (by omega) hr
    refine ⟨m, _, _, d, ?_, hstring, ?_, hread, hd⟩
    · simp only [List.append_assoc, List.cons_append]
      rw [skipSpace_append ha, hm, skipSpace_cons (by decide)]
    · rw [skipSpace_append hb, skipSpace_cons (by decide)]
  | lastMember hl ih =>
    intro fuel r hfuel
    have hpos := hl.member_length_pos
    obtain ⟨n, rfl⟩ : ∃ n, fuel = n + 1 := ⟨fuel - 1, by omega⟩
    exact readMembers_last (ih n ('\x7d' :: r) (by omega) (closing_cons (by decide) r))
  | @moreMembers l m key v ms _ _ ih ihs =>
    intro fuel r hfuel
    simp only [List.length_append, List.length_cons] at hfuel
    obtain ⟨n, rfl⟩ : ∃ n, fuel = n + 1 := ⟨fuel - 1, by omega⟩
    have hread := ih n (',' :: (m ++ '\x7d' :: r)) (by omega) (closing_cons (by decide) _)
    rw [List.append_assoc, List.cons_append]
    exact readMembers_more hread (ihs n r (by omega))

/-- Every text of the grammar is read as the value it spells. -/
theorem Document.parse {s : String} {v : Json} (h : Document s v) : Json.parse s = some v := by
  have hfuel : 2 * s.toList.length ≤ 2 * s.length + 1 + 2 := by
    rw [String.length_toList]
    omega
  obtain ⟨m, hread, hm⟩ := Spelled.reads h (2 * s.length + 1) [] hfuel closing_nil
  rw [List.append_nil] at hread
  simp only [Json.parse, hread, hm, List.isEmpty_nil, if_true]

end HostProbe.Json
