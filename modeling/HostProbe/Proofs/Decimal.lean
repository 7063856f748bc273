import HostProbe.Text.Decimal
import Mathlib.Algebra.Order.Ring.Int

/-!
Decimal texts and their values. A natural number has exactly one text without superfluous zeros,
and reading that text gives the number back.
-/

namespace HostProbe.Text.Decimal

/-- Digits without superfluous zeros. -/
inductive Canonical : List Char → Prop where
  | zero : Canonical ['0']
  | digits {c : Char} {l : List Char} : c.isDigit = true → c ≠ '0' →
      (∀ d ∈ l, d.isDigit = true) → Canonical (c :: l)

theorem Canonical.opens {l : List Char} (h : Canonical l) :
    ∃ c r, l = c :: r ∧ c.isDigit = true ∧ ∀ d ∈ r, d.isDigit = true := by
  cases h with
  | zero => exact ⟨'0', [], rfl, by decide, fun d hd => absurd hd List.not_mem_nil⟩
  | digits hc _ hl => exact ⟨_, _, rfl, hc, hl⟩

@[simp] theorem toList_ofNat (n : Nat) : (ofNat n).toList = Nat.toDigits 10 n :=
  String.toList_ofList

theorem value_toDigits (n : Nat) : value (Nat.toDigits 10 n) = n := by
  have h : Nat.ofDigitChars 10 (Nat.toDigits 10 n) 0 = n := Nat.ofDigitChars_ten_toDigits
  rwa [Nat.ofDigitChars_eq_foldl] at h

theorem isDigit_of_mem_toDigits {n : Nat} {c : Char} (h : c ∈ Nat.toDigits 10 n) :
    c.isDigit = true :=
  Nat.isDigit_of_mem_toDigits (by decide) (by decide) h

/-- A number is written in digits only. -/
theorem not_mem_ofNat {c : Char} (h : c.isDigit = false) (n : Nat) : c ∉ (ofNat n).toList := by
  intro hmem
  rw [toList_ofNat] at hmem
  exact Bool.false_ne_true (h.symm.trans (isDigit_of_mem_toDigits hmem))

theorem not_mem_ofInt {c : Char} (h : c.isDigit = false) (hminus : c ≠ '-') (n : Int) :
    c ∉ (ofInt n).toList := by
  cases n with
  | ofNat n => exact not_mem_ofNat h n
  | negSucc n =>
    rw [ofInt, String.toList_append, List.mem_append, not_or]
    exact ⟨List.mem_singleton.not.mpr hminus, not_mem_ofNat h (n + 1)⟩

theorem digits?_eq_some_iff {l : List Char} {n : Nat} :
    digits? l = some n ↔ (l ≠ [] ∧ ∀ c ∈ l, c.isDigit = true) ∧ value l = n := by
  rw [digits?, Option.ite_none_right_eq_some, Option.some.injEq, List.all_eq_true]

theorem digits?_toDigits (n : Nat) : digits? (Nat.toDigits 10 n) = some n :=
  digits?_eq_some_iff.mpr
    ⟨⟨Nat.toDigits_ne_nil, fun _ => isDigit_of_mem_toDigits⟩, value_toDigits n⟩

theorem inWord_eq_some_iff {n m : Nat} : inWord n = some m ↔ n = m ∧ m ≤ 2 ^ 64 - 1 := by
  rw [inWord, Option.ite_none_right_eq_some, Option.some.injEq, wordBound]
  omega

theorem canonical_toDigits (n : Nat) : Canonical (Nat.toDigits 10 n) := by
  induction n using Nat.strongRecOn with
  | ind n ih =>
    by_cases h : n < 10
    · rw [Nat.toDigits_of_lt_base h]
      by_cases hn : n = 0
      · subst hn
        exact .zero
      · refine .digits ?_ ?_ ?_
        · rw [Nat.isDigit_digitChar, decide_eq_true h]
        · rwa [ne_eq, Nat.digitChar_eq_zero]
        · intro d hd
          exact absurd hd List.not_mem_nil
    · have hlast : (n % 10).digitChar.isDigit = true := by
        rw [Nat.isDigit_digitChar, decide_eq_true (by omega)]
      -- what stands before the last digit is the text of a number that is not zero
      have hfirst := ih (n / 10) (by omega)
      have hpos : Nat.toDigits 10 (n / 10) ≠ Nat.toDigits 10 0 := by
        intro he
        have := value_toDigits (n / 10)
        rw [he, value_toDigits] at this
        omega
      rw [Nat.toDigits_of_base_le (by decide) (by omega)]
      cases hd : Nat.toDigits 10 (n / 10) with
      | nil => exact absurd hd Nat.toDigits_ne_nil
      | cons c l =>
        rw [hd] at hfirst hpos
        cases hfirst with
        | zero => exact absurd (Nat.toDigits_zero 10).symm hpos
        | digits hc hne hl =>
          refine .digits hc hne ?_
          intro d hd
          rcases List.mem_append.mp hd with hd | hd
          · exact hl d hd
          · rw [List.mem_singleton.mp hd]
            exact hlast

theorem digitChar_sub {c : Char} (h : c.isDigit = true) :
    c.toNat - '0'.toNat < 10 ∧ Nat.digitChar (c.toNat - '0'.toNat) = c := by
  have hrange : 48 ≤ c.toNat ∧ c.toNat ≤ 57 := Char.isDigit_iff_toNat.mp h
  have hzero : '0'.toNat = 48 := rfl
  have hlt : c.toNat - '0'.toNat < 10 := by omega
  refine ⟨hlt, Char.toNat_inj.mp ?_⟩
  rw [Nat.toNat_digitChar_of_lt_ten hlt]
  omega

theorem toDigits_value_append {n : Nat} (hn : 0 < n) {l : List Char}
    (h : ∀ d ∈ l, d.isDigit = true) : ∃ m, Nat.toDigits 10 n ++ l = Nat.toDigits 10 m := by
  induction l generalizing n with
  | nil => exact ⟨n, List.append_nil _⟩
  | cons d l ih =>
    have hd := digitChar_sub (h d List.mem_cons_self)
    have hstep := Nat.toDigits_append_toDigits (b := 10) (by decide) hn hd.1
    rw [Nat.toDigits_of_lt_base hd.1, hd.2] at hstep
    have hpos : 0 < 10 * n + (d.toNat - '0'.toNat) := by omega
    obtain ⟨m, hm⟩ := ih hpos fun c hc => h c (List.mem_cons_of_mem d hc)
    refine ⟨m, ?_⟩
    rw [← hm, ← hstep, List.append_assoc, List.singleton_append]

/-- The texts without superfluous zeros are the texts of numbers. -/
theorem canonical_iff {l : List Char} : Canonical l ↔ ∃ n, l = Nat.toDigits 10 n := by
  constructor
  · intro h
    cases h with
    | zero => exact ⟨0, (Nat.toDigits_zero 10).symm⟩
    | @digits c l hc hne hl =>
      have hlead := digitChar_sub hc
      have hpos : 0 < c.toNat - '0'.toNat := by
        apply Nat.pos_of_ne_zero
        intro he
        rw [he] at hlead
        exact hne hlead.2.symm
      obtain ⟨m, hm⟩ := toDigits_value_append hpos hl
      refine ⟨m, ?_⟩
      rw [← hm, Nat.toDigits_of_lt_base hlead.1, hlead.2, List.singleton_append]
  · rintro ⟨n, rfl⟩
    exact canonical_toDigits n

/-- Reads a number that may have a minus sign. -/
def integer? : List Char → Option Int
  | '-' :: l => (digits? l).map fun n => -(n : Int)
  | l => (digits? l).map fun n => (n : Int)

theorem integer?_ofInt (n : Int) : integer? (ofInt n).toList = some n := by
  cases n with
  | ofNat n =>
    have hunsigned : ∀ l, Nat.toDigits 10 n = '-' :: l → False := by
      intro l hl
      have hdigit : '-'.isDigit = true := isDigit_of_mem_toDigits (hl ▸ List.mem_cons_self)
      cases hdigit
    rw [ofInt, toList_ofNat, integer?.eq_2 _ hunsigned, digits?_toDigits]
    rfl
  | negSucc n =>
    have hminus : "-".toList = ['-'] := by decide
    rw [ofInt, String.toList_append, toList_ofNat, hminus, List.singleton_append, integer?,
      digits?_toDigits]
    rfl

end HostProbe.Text.Decimal
