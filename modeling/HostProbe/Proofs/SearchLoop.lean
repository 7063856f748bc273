import HostProbe.Proofs.Bisection
import Mathlib.Data.Nat.Log
import Mathlib.Order.Bounds.Basic

/-!
The search loop from any interval, in words of 64 bits. The answer to a question may depend on
when it is asked and about which offset. Bounds within 62 bits keep every sum and difference of
the loop representable; how often it asks depends on the width only, and with a monotone
predicate it ends at the least accepted offset.
-/

namespace HostProbe.Interval

/-- The interval after `n` answers, each of them about the midpoint. -/
def after (i : Interval) (answer : Nat → Int → Bool) : Nat → Interval
  | 0 => i
  | n + 1 => (i.narrow i.midpoint (answer 0 i.midpoint)).after (fun m => answer (m + 1)) n

/-- The first `n` questions with their answers. -/
def asked (i : Interval) (answer : Nat → Int → Bool) : Nat → List Query
  | 0 => []
  | n + 1 => ⟨i.midpoint, answer 0 i.midpoint⟩ ::
      (i.narrow i.midpoint (answer 0 i.midpoint)).asked (fun m => answer (m + 1)) n

variable {i j : Interval} {answer : Nat → Int → Bool}

theorem after_succ (i : Interval) (answer : Nat → Int → Bool) (n : Nat) :
    i.after answer (n + 1) =
      (i.after answer n).narrow (i.after answer n).midpoint
        (answer n (i.after answer n).midpoint) := by
  induction n generalizing i answer with
  | zero => rfl
  | succ n ih => exact ih (i.narrow i.midpoint (answer 0 i.midpoint)) fun m => answer (m + 1)

theorem length_asked (i : Interval) (answer : Nat → Int → Bool) (n : Nat) :
    (i.asked answer n).length = n := by
  induction n generalizing i answer with
  | zero => rfl
  | succ n ih => exact congrArg (· + 1) (ih _ _)

theorem mem_asked {q : Query} {n : Nat} (hq : q ∈ i.asked answer n) :
    ∃ m < n, q = ⟨(i.after answer m).midpoint, answer m (i.after answer m).midpoint⟩ := by
  induction n generalizing i answer with
  | zero => cases hq
  | succ n ih =>
    rcases List.mem_cons.mp hq with rfl | hq
    · exact ⟨0, Nat.succ_pos n, rfl⟩
    · obtain ⟨m, hm, rfl⟩ := ih hq
      exact ⟨m + 1, Nat.succ_lt_succ hm, rfl⟩

/-- The loop stops, whatever the answers are: the intervals get narrower while they are open. -/
theorem exists_bisected (i : Interval) (answer : Nat → Int → Bool) :
    ∃ n, Bisected i (i.asked answer n) (i.after answer n) ∧
      (i.after answer n).isSettled = true ∧ ∀ m < n, (i.after answer m).isSettled = false := by
  induction hwidth : i.width.toNat using Nat.strong_induction_on generalizing i answer with
  | _ width ih =>
    cases hs : i.isSettled with
    | true => exact ⟨0, .settled hs, hs, fun m hm => absurd hm (Nat.not_lt_zero m)⟩
    | false =>
      have hnarrower := i.narrow_midpoint_width (answer 0 i.midpoint) hs
      obtain ⟨n, hbisected, hlast, hopen⟩ := ih _ (by omega)
        (i.narrow i.midpoint (answer 0 i.midpoint)) (fun m => answer (m + 1)) rfl
      refine ⟨n + 1, .ask _ hs hbisected, hlast, ?_⟩
      intro m hm
      cases m with
      | zero => exact hs
      | succ m => exact hopen m (by omega)

/-- As long as the loop runs, its intervals lie inside the first one and are not empty. -/
theorem after_within (hi : i.low < i.high) {n : Nat}
    (hopen : ∀ m < n, (i.after answer m).isSettled = false) :
    i.low ≤ (i.after answer n).low ∧ (i.after answer n).low < (i.after answer n).high ∧
      (i.after answer n).high ≤ i.high := by
  induction n with
  | zero => exact ⟨Int.le_refl _, hi, Int.le_refl _⟩
  | succ n ih =>
    obtain ⟨hlow, _, hhigh⟩ := ih fun m hm => hopen m (by omega)
    have hn := hopen n (by omega)
    rw [after_succ]
    obtain ⟨hlow', hhigh'⟩ :=
      narrow_midpoint_within (answer n (i.after answer n).midpoint) hn
    exact ⟨Int.le_trans hlow hlow', narrow_midpoint_low_lt_high _ hn, Int.le_trans hhigh' hhigh⟩

/-- The bounds are words of at most 62 bits and a sign. -/
def Fits (i : Interval) : Prop := -2 ^ 62 ≤ i.low ∧ i.low < i.high ∧ i.high ≤ 2 ^ 62 - 1

theorem Fits.settled? (h : i.Fits) : i.settled? = .ok i.isSettled := by
  obtain ⟨hlow, hlt, hhigh⟩ := h
  exact if_pos (decide_eq_true (by omega))

theorem Fits.midpoint? (h : i.Fits) : i.midpoint? = .ok i.midpoint := by
  obtain ⟨hlow, hlt, hhigh⟩ := h
  exact if_pos (decide_eq_true (by omega))

theorem Fits.after (h : i.Fits) {n : Nat}
    (hopen : ∀ m < n, (i.after answer m).isSettled = false) : (i.after answer n).Fits := by
  obtain ⟨hlow, hlt, hhigh⟩ := h
  obtain ⟨hlow', hlt', hhigh'⟩ := after_within hlt hopen
  exact ⟨Int.le_trans hlow hlow', hlt', Int.le_trans hhigh' hhigh⟩

theorem log_le_length {queries : List Query} (h : Bisected i queries j) (hi : i.low < i.high) :
    Nat.log 2 i.width.toNat ≤ queries.length := by
  have hpos : 0 < i.width := by
    rw [width]
    omega
  apply h.le_length
  have hpow : 2 ^ Nat.log 2 i.width.toNat ≤ i.width.toNat :=
    Nat.pow_log_le_self 2 (by omega)
  have hcast : ((2 ^ Nat.log 2 i.width.toNat : Nat) : Int) ≤ i.width := by omega
  simpa using hcast

theorem length_le_clog {queries : List Query} (h : Bisected i queries j) :
    queries.length ≤ Nat.clog 2 i.width.toNat := by
  apply h.length_le
  have hpow : i.width.toNat ≤ 2 ^ Nat.clog 2 i.width.toNat :=
    Nat.le_pow_clog (by decide) _
  have hcast : i.width ≤ ((2 ^ Nat.clog 2 i.width.toNat : Nat) : Int) := by omega
  simpa using hcast

/-- The offsets inside an interval that a predicate accepts. -/
def acceptedInside (i : Interval) (p : Int → Bool) : Set Int :=
  {x | i.low < x ∧ x < i.high ∧ p x = true}

/-- Between the bounds of a settled interval there is nothing left to accept, so the upper one is
the least accepted offset, unless it never moved. -/
theorem Settlement.isLeast {queries : List Query} {p : Int → Bool} (h : Settlement i queries j)
    (hanswered : ∀ q ∈ queries, q.accepted = p q.offset)
    (hmono : ∀ x y, i.low < x → x ≤ y → y < i.high → p x = true → p y = true) :
    IsLeast (i.acceptedInside p) j.high ∨ i.acceptedInside p = ∅ ∧ j.high = i.high := by
  have hadj := h.adjacent
  have hbound : ∀ x ∈ i.acceptedInside p, j.high ≤ x := by
    rintro x ⟨hlow, hhigh, hx⟩
    by_contra hlt
    rcases h.low_tried with he | hm
    · omega
    · have hin : j.low < i.high := (h.inside _ hm).2
      have hrejected : false = p j.low := hanswered _ hm
      have haccepted := hmono x j.low hlow (by omega) hin hx
      exact Bool.noConfusion (hrejected.trans haccepted)
  rcases h.high_tried with he | hm
  · refine Or.inr ⟨Set.eq_empty_iff_forall_notMem.mpr ?_, he⟩
    intro x hx
    have hle := hbound x hx
    have hlt := hx.2.1
    omega
  · have hin : i.low < j.high ∧ j.high < i.high := h.inside _ hm
    have haccepted : true = p j.high := hanswered _ hm
    exact Or.inl ⟨⟨hin.1, hin.2, haccepted.symm⟩, hbound⟩

/-- The search loop in words. It never overflows, each midpoint lies strictly inside, the
intervals are never empty and never wider than before, and the loop stops at neighbours after
about as many answers as the width has binary digits. -/
theorem search_loop_settles (i : Interval) (answer : Nat → Int → Bool)
    (hlow : -2 ^ 62 ≤ i.low) (hlt : i.low < i.high) (hhigh : i.high ≤ 2 ^ 62 - 1) :
    ∃ n : Nat,
      (∀ m < n,
        let now := i.after answer m
        let later := i.after answer (m + 1)
        now.settled? = .ok false ∧
          (∃ mid, now.midpoint? = .ok mid ∧ now.low < mid ∧ mid < now.high ∧
            later = now.narrow mid (answer m mid)) ∧
          now.low ≤ later.low ∧ later.low < later.high ∧ later.high ≤ now.high) ∧
      (i.after answer n).settled? = .ok true ∧
      (i.after answer n).high - (i.after answer n).low = 1 ∧
      (∀ k : Nat, 2 ^ k ≤ i.high - i.low → i.high - i.low ≤ 2 ^ (k + 1) → n = k ∨ n = k + 1) ∧
      Nat.log 2 (i.high - i.low).toNat ≤ n ∧ n ≤ Nat.clog 2 (i.high - i.low).toNat ∧
      ∀ p : Int → Bool,
        (∀ m < n, answer m (i.after answer m).midpoint = p (i.after answer m).midpoint) →
        (∀ x y, i.low < x → x ≤ y → y < i.high → p x = true → p y = true) →
        IsLeast (i.acceptedInside p) (i.after answer n).high ∨
          i.acceptedInside p = ∅ ∧ (i.after answer n).high = i.high := by
  have hfits : i.Fits := ⟨hlow, hlt, hhigh⟩
  obtain ⟨n, hbisected, hlast, hopen⟩ := i.exists_bisected answer
  have hsettlement := hbisected.settlement hlt
  have hadj := hsettlement.adjacent
  have hcount := i.length_asked answer n
  refine ⟨n, ?_, ?_, by omega, ?_, ?_, ?_, ?_⟩
  · intro m hm now later
    have hnow : now.Fits := hfits.after fun l hl => hopen l (by omega)
    have hactive : now.isSettled = false := hopen m hm
    have hlater : later = now.narrow now.midpoint (answer m now.midpoint) := i.after_succ answer m
    have hmid := now.midpoint_between hactive
    have hwithin := narrow_midpoint_within (answer m now.midpoint) hactive
    have hproper := narrow_midpoint_low_lt_high (answer m now.midpoint) hactive
    refine ⟨by rw [hnow.settled?, hactive], ⟨_, hnow.midpoint?, hmid.1, hmid.2, hlater⟩, ?_⟩
    rw [hlater]
    exact ⟨hwithin.1, hproper, hwithin.2⟩
  · rw [(hfits.after hopen).settled?, hlast]
  · intro k hmin hmax
    have hatLeast := hbisected.le_length k hmin
    have hatMost := hbisected.length_le (k + 1) hmax
    omega
  · exact hcount ▸ log_le_length hbisected hlt
  · exact hcount ▸ length_le_clog hbisected
  · intro p hp hmono
    refine hsettlement.isLeast ?_ hmono
    intro q hq
    obtain ⟨m, hm, rfl⟩ := mem_asked hq
    exact hp m hm

/-- The widest interval of that kind, with the offsets from zero on accepted. -/
theorem search_loop_settles_widest :
    let i : Interval := ⟨-2 ^ 62, 2 ^ 62 - 1⟩
    let answer : Nat → Int → Bool := fun _ x => decide (0 ≤ x)
    ∃ n, (i.after answer n).settled? = .ok true ∧ (i.after answer n).high = 0 ∧
      (n = 62 ∨ n = 63) := by
  intro i answer
  obtain ⟨n, _, hlast, _, hcount, _, _, hleast⟩ :=
    search_loop_settles i answer (by decide) (by decide) (by decide)
  refine ⟨n, hlast, ?_, hcount 62 (by decide) (by decide)⟩
  have hzero : (0 : Int) ∈ i.acceptedInside fun x => decide (0 ≤ x) :=
    ⟨by decide, by decide, by decide⟩
  have hmono : ∀ x y, i.low < x → x ≤ y → y < i.high →
      decide (0 ≤ x) = true → decide (0 ≤ y) = true := by
    intro x y _ hxy _ hx
    have hpos := of_decide_eq_true hx
    exact decide_eq_true (by omega)
  rcases hleast (fun x => decide (0 ≤ x)) (fun _ _ => rfl) hmono with hleast | ⟨hnone, _⟩
  · have hle := hleast.2 hzero
    have hpos : (0 : Int) ≤ (i.after answer n).high := of_decide_eq_true hleast.1.2.2
    omega
  · rw [hnone] at hzero
    exact absurd hzero (Set.notMem_empty _)

end HostProbe.Interval
