import HostProbe.Text.Utf8

/-!
Decoding UTF-8 is exact: it accepts the encodings of texts and nothing else, and gives back the
text that was encoded. `Sequence` says which octets may stand for one character; the encoder and
the decoder are each compared with it.
-/

namespace HostProbe.Text.Utf8

/-- The octets of one character, with its code point. Overlong forms, surrogates and what lies
beyond U+10FFFF are left out by the bounds on the code point. -/
inductive Sequence : List UInt8 → Nat → Prop where
  | one {a : UInt8} {n : Nat} : a.toNat < 0x80 → n = a.toNat → Sequence [a] n
  | two {a b : UInt8} {n : Nat} : 0xC2 ≤ a.toNat → a.toNat ≤ 0xDF → isTail b = true →
      n = a.toNat % 0x20 * 0x40 + tailBits b → Sequence [a, b] n
  | three {a b c : UInt8} {n : Nat} : 0xE0 ≤ a.toNat → a.toNat ≤ 0xEF →
      isTail b = true → isTail c = true →
      n = a.toNat % 0x10 * 0x1000 + tailBits b * 0x40 + tailBits c →
      0x800 ≤ n → n < 0xD800 ∨ 0xDFFF < n → Sequence [a, b, c] n
  | four {a b c d : UInt8} {n : Nat} : 0xF0 ≤ a.toNat → a.toNat ≤ 0xF4 →
      isTail b = true → isTail c = true → isTail d = true →
      n = a.toNat % 0x08 * 0x40000 + tailBits b * 0x1000 + tailBits c * 0x40 + tailBits d →
      0x10000 ≤ n → n ≤ 0x10FFFF → Sequence [a, b, c, d] n

theorem isTail_iff (b : UInt8) : isTail b = true ↔ 0x80 ≤ b.toNat ∧ b.toNat ≤ 0xBF := by
  simp only [isTail, Bool.and_eq_true, decide_eq_true_eq, UInt8.le_iff_toNat_le]
  rfl

theorem toNat_of_isTail {b : UInt8} (h : isTail b = true) :
    b.toNat = 0x80 + tailBits b ∧ tailBits b < 0x40 := by
  rw [isTail_iff] at h
  rw [tailBits]
  omega

theorem ofNat_eq {b : UInt8} {n : Nat} (h : n = b.toNat) : UInt8.ofNat n = b := by
  rw [h, UInt8.ofNat_toNat]

theorem Sequence.isValidChar {octets : List UInt8} {n : Nat} (h : Sequence octets n) :
    n.isValidChar := by
  cases h with
  | one ha hn => exact Or.inl (by omega)
  | two _ _ hb hn =>
    have hb := toNat_of_isTail hb
    exact Or.inl (by omega)
  | three _ _ hb hc hn _ hgap =>
    have hb := toNat_of_isTail hb
    have hc := toNat_of_isTail hc
    rw [Nat.isValidChar]
    omega
  | four _ _ _ _ _ _ hlow hhigh =>
    rw [Nat.isValidChar]
    omega

theorem Sequence.encodeChar {octets : List UInt8} {n : Nat} (h : Sequence octets n) :
    String.utf8EncodeChar (Char.ofNat n) = octets := by
  have hval : (Char.ofNat n).val.toNat = n := by
    rw [Char.ofNat, dif_pos h.isValidChar]
    rfl
  rw [String.utf8EncodeChar, hval]
  cases h with
  | @one a n ha hn => rw [if_pos (by omega), ofNat_eq hn]
  | @two a b n ha ha' hb hn =>
    have hb := toNat_of_isTail hb
    rw [if_neg (by omega), if_pos (by omega), ofNat_eq (b := a) (by omega),
      ofNat_eq (b := b) (by omega)]
  | @three a b c n ha ha' hb hc hn hlow hgap =>
    have hb := toNat_of_isTail hb
    have hc := toNat_of_isTail hc
    rw [if_neg (by omega), if_neg (by omega), if_pos (by omega), ofNat_eq (b := a) (by omega),
      ofNat_eq (b := b) (by omega), ofNat_eq (b := c) (by omega)]
  | @four a b c d n ha ha' hb hc hd hn hlow hhigh =>
    have hb := toNat_of_isTail hb
    have hc := toNat_of_isTail hc
    have hd := toNat_of_isTail hd
    rw [if_neg (by omega), if_neg (by omega), if_neg (by omega), ofNat_eq (b := a) (by omega),
      ofNat_eq (b := b) (by omega), ofNat_eq (b := c) (by omega), ofNat_eq (b := d) (by omega)]

theorem tail_ofNat (n : Nat) : isTail (UInt8.ofNat (n % 64 + 128)) = true ∧
    tailBits (UInt8.ofNat (n % 64 + 128)) = n % 64 := by
  rw [isTail_iff, tailBits, UInt8.toNat_ofNat_of_lt' (show n % 64 + 128 < 256 by omega)]
  omega

/-- Every character is written as a sequence of its own code point. -/
theorem sequence_encodeChar (c : Char) : Sequence (String.utf8EncodeChar c) c.toNat := by
  have hvalid : c.toNat < 0xD800 ∨ 0xDFFF < c.toNat ∧ c.toNat < 0x110000 := c.valid
  have hval : c.val.toNat = c.toNat := rfl
  rw [String.utf8EncodeChar, hval]
  generalize c.toNat = n at hvalid
  have hlast := tail_ofNat n
  have hmiddle := tail_ofNat (n / 64)
  have hsecond := tail_ofNat (n / 4096)
  split
  · have ha := UInt8.toNat_ofNat_of_lt' (show n < 256 by omega)
    exact .one (by omega) ha.symm
  split
  · have ha := UInt8.toNat_ofNat_of_lt' (show n / 64 % 32 + 192 < 256 by omega)
    exact .two (by omega) (by omega) hlast.1 (by omega)
  split
  · have ha := UInt8.toNat_ofNat_of_lt' (show n / 4096 % 16 + 224 < 256 by omega)
    exact .three (by omega) (by omega) hmiddle.1 hlast.1 (by omega) (by omega) (by omega)
  · have ha := UInt8.toNat_ofNat_of_lt' (show n / 262144 % 8 + 240 < 256 by omega)
    exact .four (by omega) (by omega) hsecond.1 hmiddle.1 hlast.1 (by omega) (by omega) (by omega)

theorem range_iff (low high a : UInt8) :
    (low ≤ a && a ≤ high) = true ↔ low.toNat ≤ a.toNat ∧ a.toNat ≤ high.toNat := by
  simp only [Bool.and_eq_true, decide_eq_true_eq, UInt8.le_iff_toNat_le]

theorem not_range (low high : UInt8) {a : UInt8} (h : high.toNat < a.toNat) :
    ¬ (low ≤ a && a ≤ high) = true := by
  rw [range_iff]
  omega

theorem not_ascii {a : UInt8} (h : 0x80 ≤ a.toNat) : ¬ a < 0x80 := by
  rw [UInt8.lt_iff_toNat_lt]
  exact Nat.not_lt.mpr h

theorem Sequence.decodeOnto {octets : List UInt8} {n : Nat} (h : Sequence octets n)
    (done : List Char) (rest : List UInt8) :
    Utf8.decodeOnto done (octets ++ rest) = Utf8.decodeOnto (Char.ofNat n :: done) rest := by
  cases h with
  | @one a n ha hn =>
    have hlead : a < 0x80 := UInt8.lt_iff_toNat_lt.mpr ha
    rw [List.singleton_append, Utf8.decodeOnto.eq_def]
    simp only [hlead, hn, if_true]
  | @two a b n ha ha' hb hn =>
    have hlead := not_ascii (a := a) (by omega)
    have htwo := (range_iff 0xC2 0xDF a).mpr ⟨ha, ha'⟩
    rw [List.cons_append, List.singleton_append, Utf8.decodeOnto.eq_def]
    simp only [hlead, hb, htwo, hn, if_true, if_false, Bool.not_true, Bool.false_eq_true]
  | @three a b c n ha ha' hb hc hn hlow hgap =>
    have hlead := not_ascii (a := a) (by omega)
    have htwo := not_range 0xC2 0xDF (Nat.lt_of_lt_of_le (by decide) ha)
    have hthree := (range_iff 0xE0 0xEF a).mpr ⟨ha, ha'⟩
    have hn' : (0x800 ≤ n && (n < 0xD800 || 0xDFFF < n)) = true := by
      simpa [hlow] using hgap
    rw [List.cons_append, List.cons_append, List.singleton_append, Utf8.decodeOnto.eq_def]
    simp only [hlead, hb, hc, htwo, hthree, ← hn, hn', if_true, if_false, Bool.not_true,
      Bool.false_eq_true]
  | @four a b c d n ha ha' hb hc hd hn hlow hhigh =>
    have hlead := not_ascii (a := a) (by omega)
    have htwo := not_range 0xC2 0xDF (Nat.lt_of_lt_of_le (by decide) ha)
    have hthree := not_range 0xE0 0xEF (Nat.lt_of_lt_of_le (by decide) ha)
    have hfour : (isTail d && 0xF0 ≤ a && a ≤ 0xF4 && 0x10000 ≤ n && n ≤ 0x10FFFF) = true := by
      have hrange := (range_iff 0xF0 0xF4 a).mpr ⟨ha, ha'⟩
      simp only [Bool.and_eq_true, decide_eq_true_eq] at hrange ⊢
      exact ⟨⟨⟨⟨hd, hrange.1⟩, hrange.2⟩, hlow⟩, hhigh⟩
    rw [List.cons_append, List.cons_append, List.cons_append, List.singleton_append,
      Utf8.decodeOnto.eq_def]
    simp only [hlead, hb, hc, htwo, hthree, ← hn, hfour, if_true, if_false, Bool.not_true,
      Bool.false_eq_true]

theorem decodeOnto_flatMap (done l : List Char) :
    decodeOnto done (l.flatMap String.utf8EncodeChar) = some (done.reverse ++ l) := by
  induction l generalizing done with
  | nil => simp [decodeOnto]
  | cons c l ih =>
    rw [List.flatMap_cons, (sequence_encodeChar c).decodeOnto, Char.ofNat_toNat, ih,
      List.reverse_cons, List.append_assoc, List.singleton_append]

theorem Sequence.flatMap_cons {octets : List UInt8} {n : Nat} (h : Sequence octets n)
    {done l : List Char} {rest : List UInt8}
    (hl : l.flatMap String.utf8EncodeChar =
      (Char.ofNat n :: done).reverse.flatMap String.utf8EncodeChar ++ rest) :
    l.flatMap String.utf8EncodeChar =
      done.reverse.flatMap String.utf8EncodeChar ++ (octets ++ rest) := by
  rw [hl, List.reverse_cons, List.flatMap_append, List.flatMap_singleton, h.encodeChar,
    List.append_assoc]

/-- Whatever the decoder accepts is an encoding of what it gives. -/
theorem flatMap_of_decodeOnto (done : List Char) (octets : List UInt8) {l : List Char}
    (h : decodeOnto done octets = some l) :
    l.flatMap String.utf8EncodeChar = done.reverse.flatMap String.utf8EncodeChar ++ octets := by
  -- besides the end of the octets four branches read a character and go on; the others refuse
  fun_induction decodeOnto done octets with
  | case1 done =>
    obtain rfl := Option.some.inj h
    rw [List.append_nil]
  | case2 done a rest ha ih =>
    exact Sequence.flatMap_cons (.one (UInt8.lt_iff_toNat_lt.mp ha) rfl) (ih h)
  | case5 done a _ b rest hb ha ih =>
    have hb : isTail b = true := by simpa using hb
    have ha := (range_iff 0xC2 0xDF a).mp ha
    exact Sequence.flatMap_cons (.two ha.1 ha.2 hb rfl) (ih h)
  | case8 done a _ b hb _ c rest three hc ha hn ih =>
    have hb : isTail b = true := by simpa using hb
    have hc : isTail c = true := by simpa using hc
    have ha := (range_iff 0xE0 0xEF a).mp ha
    simp only [Bool.and_eq_true, Bool.or_eq_true, decide_eq_true_eq] at hn
    exact Sequence.flatMap_cons (.three ha.1 ha.2 hb hc rfl hn.1 hn.2) (ih h)
  | case11 done a _ b hb _ c hc _ d rest four hn ih =>
    have hb : isTail b = true := by simpa using hb
    have hc : isTail c = true := by simpa using hc
    simp only [Bool.and_eq_true, decide_eq_true_eq, UInt8.le_iff_toNat_le] at hn
    obtain ⟨⟨⟨⟨hd, hlow⟩, hhigh⟩, hn⟩, hn'⟩ := hn
    exact Sequence.flatMap_cons (.four hlow hhigh hb hc hd rfl hn hn') (ih h)
  | _ => cases h

/-- Decoding undoes encoding and accepts nothing but encodings. -/
theorem decode_eq_some_iff {octets : List UInt8} {s : String} :
    decode octets = some s ↔ octets = encode s := by
  constructor
  · intro h
    obtain ⟨l, hl, rfl⟩ := Option.map_eq_some_iff.mp h
    have hoctets := flatMap_of_decodeOnto [] octets hl
    rw [encode, String.toList_ofList, hoctets]
    rfl
  · rintro rfl
    rw [decode, encode, decodeOnto_flatMap, List.reverse_nil, List.nil_append, Option.map_some,
      String.ofList_toList]

theorem encode_append (l m : List Char) :
    encode (String.ofList (l ++ m)) = encode (String.ofList l) ++ encode (String.ofList m) := by
  simp only [encode, String.toList_ofList, List.flatMap_append]

/-- An ASCII octet is a sequence of its own, never a part of a longer one. -/
theorem Sequence.eq_of_ascii {octets : List UInt8} {n : Nat} (h : Sequence octets n) {b : UInt8}
    (hb : b ∈ octets) (hascii : b.toNat < 0x80) : n = b.toNat := by
  cases h with
  | one _ hn =>
    obtain rfl := List.mem_singleton.mp hb
    exact hn
  | two ha _ htail _ =>
    have htail := toNat_of_isTail htail
    simp only [List.mem_cons, List.not_mem_nil, or_false] at hb
    rcases hb with rfl | rfl <;> omega
  | three ha _ hsecond hthird _ _ _ =>
    have hsecond := toNat_of_isTail hsecond
    have hthird := toNat_of_isTail hthird
    simp only [List.mem_cons, List.not_mem_nil, or_false] at hb
    rcases hb with rfl | rfl | rfl <;> omega
  | four ha _ hsecond hthird hfourth _ _ _ =>
    have hsecond := toNat_of_isTail hsecond
    have hthird := toNat_of_isTail hthird
    have hfourth := toNat_of_isTail hfourth
    simp only [List.mem_cons, List.not_mem_nil, or_false] at hb
    rcases hb with rfl | rfl | rfl | rfl <;> omega

theorem ascii_mem_encode {l : List Char} {b : UInt8} (h : b ∈ encode (String.ofList l))
    (hascii : b.toNat < 0x80) : Char.ofNat b.toNat ∈ l := by
  rw [encode, String.toList_ofList] at h
  obtain ⟨c, hc, hb⟩ := List.mem_flatMap.mp h
  have hcode := (sequence_encodeChar c).eq_of_ascii hb hascii
  rwa [← hcode, Char.ofNat_toNat]

end HostProbe.Text.Utf8
