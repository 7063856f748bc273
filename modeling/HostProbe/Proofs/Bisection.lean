import HostProbe.Interval
import Mathlib.Algebra.Order.Ring.Int

/-!
Whole bisections of an interval. The answers are arbitrary: nothing says that they come from a
monotone predicate, or that one offset would be answered alike twice. What a finished bisection
tells about its answers is collected in `Settlement`; how many answers it takes follows from
the width alone.
-/

namespace HostProbe.Interval

structure Query where
  offset : Int
  accepted : Bool
  deriving DecidableEq, Repr

/-- The midpoint of each open interval is tried in turn, the answers being those of the queries,
until the last interval is settled. -/
inductive Bisected : Interval → List Query → Interval → Prop where
  | settled {i} : i.isSettled = true → Bisected i [] i
  | ask {i j queries} (accepted : Bool) : i.isSettled = false →
      Bisected (i.narrow i.midpoint accepted) queries j →
      Bisected i (⟨i.midpoint, accepted⟩ :: queries) j

@[simp] theorem narrow_true (i : Interval) (mid : Int) :
    i.narrow mid true = ⟨i.low, mid⟩ := rfl

@[simp] theorem narrow_false (i : Interval) (mid : Int) :
    i.narrow mid false = ⟨mid, i.high⟩ := rfl

theorem width_le_one {i : Interval} (h : i.isSettled = true) : i.width ≤ 1 :=
  of_decide_eq_true h

theorem one_lt_width {i : Interval} (h : i.isSettled = false) : 1 < i.width := by
  have hw : ¬ i.width ≤ 1 := of_decide_eq_false h
  omega

/-- What the last interval `j` of a bisection of `i` says about the queries. The bounds of `j` are
neighbours that separate the rejected offsets from the accepted ones; each bound was either
tried or never moved. -/
structure Settlement (i : Interval) (queries : List Query) (j : Interval) : Prop where
  adjacent : j.high = j.low + 1
  low_le : i.low ≤ j.low
  high_le : j.high ≤ i.high
  inside : ∀ q ∈ queries, i.low < q.offset ∧ q.offset < i.high
  accepted_above : ∀ q ∈ queries, q.accepted = true → j.high ≤ q.offset
  rejected_below : ∀ q ∈ queries, q.accepted = false → q.offset ≤ j.low
  high_tried : j.high = i.high ∨ ⟨j.high, true⟩ ∈ queries
  low_tried : j.low = i.low ∨ ⟨j.low, false⟩ ∈ queries
  distinct : (queries.map Query.offset).Nodup

theorem settlement_nil {i : Interval} (hi : i.low < i.high) (h : i.isSettled = true) :
    Settlement i [] i := by
  have hw := width_le_one h
  simp only [width] at hw
  constructor
  · omega
  · exact Int.le_refl _
  · exact Int.le_refl _
  · intro q hq; cases hq
  · intro q hq; cases hq
  · intro q hq; cases hq
  · exact Or.inl rfl
  · exact Or.inl rfl
  · exact List.nodup_nil

theorem narrow_midpoint_within {i : Interval} (accepted : Bool) (hopen : i.isSettled = false) :
    i.low ≤ (i.narrow i.midpoint accepted).low ∧ (i.narrow i.midpoint accepted).high ≤ i.high := by
  have hmid := i.midpoint_between hopen
  cases accepted <;> simp only [narrow_true, narrow_false] <;> omega

theorem narrow_midpoint_low_lt_high {i : Interval} (accepted : Bool) (hopen : i.isSettled = false) :
    (i.narrow i.midpoint accepted).low < (i.narrow i.midpoint accepted).high := by
  have hpos := (i.narrow_midpoint_width accepted hopen).1
  rw [width] at hpos
  omega

/-- The first offset of a bisection is never tried again: it bounds all later intervals. -/
theorem Settlement.ask {i j : Interval} {queries : List Query} {accepted : Bool}
    (hopen : i.isSettled = false)
    (h : Settlement (i.narrow i.midpoint accepted) queries j) :
    Settlement i (⟨i.midpoint, accepted⟩ :: queries) j := by
  have hmid := i.midpoint_between hopen
  obtain ⟨hlow, hhigh⟩ := narrow_midpoint_within accepted hopen
  refine ⟨h.adjacent, Int.le_trans hlow h.low_le, Int.le_trans h.high_le hhigh,
    ?_, ?_, ?_, ?_, ?_, ?_⟩
  · intro q hq
    rcases List.mem_cons.mp hq with rfl | hq
    · exact hmid
    · have hin := h.inside q hq
      omega
  · intro q hq ha
    rcases List.mem_cons.mp hq with rfl | hq
    · subst ha
      exact h.high_le
    · exact h.accepted_above q hq ha
  · intro q hq ha
    rcases List.mem_cons.mp hq with rfl | hq
    · subst ha
      exact h.low_le
    · exact h.rejected_below q hq ha
  · rcases h.high_tried with he | hm
    · cases accepted with
      | true => exact Or.inr (List.mem_cons.mpr (Or.inl (congrArg (Query.mk · true) he)))
      | false => exact Or.inl he
    · exact Or.inr (List.mem_cons_of_mem _ hm)
  · rcases h.low_tried with he | hm
    · cases accepted with
      | true => exact Or.inl he
      | false => exact Or.inr (List.mem_cons.mpr (Or.inl (congrArg (Query.mk · false) he)))
    · exact Or.inr (List.mem_cons_of_mem _ hm)
  · refine List.nodup_cons.mpr ⟨?_, h.distinct⟩
    intro hm
    obtain ⟨q, hq, he⟩ := List.mem_map.mp hm
    have hin := h.inside q hq
    rw [he] at hin
    cases accepted <;> simp only [narrow_true, narrow_false] at hin <;> omega

theorem Bisected.settlement {i j : Interval} {queries : List Query}
    (h : Bisected i queries j) (hi : i.low < i.high) : Settlement i queries j := by
  induction h with
  | settled hs => exact settlement_nil hi hs
  | @ask i j queries accepted hopen _ ih =>
    exact Settlement.ask hopen (ih (narrow_midpoint_low_lt_high accepted hopen))

/-- Two bisections of one interval, where the second accepts every offset that the first accepts.
They try the same offsets until their answers part; there the first rejects an offset that the
second accepts, so it lies below the one result and not below the other. -/
theorem Bisected.high_le_high {i j k : Interval} {first second : List Query}
    (hfirst : Bisected i first j) (hsecond : Bisected i second k) (hi : i.low < i.high)
    (hle : ∀ q ∈ first, ∀ r ∈ second, q.offset = r.offset →
      q.accepted = true → r.accepted = true) : k.high ≤ j.high := by
  induction hfirst generalizing second with
  | settled hs =>
    cases hsecond with
    | settled => exact Int.le_refl _
    | ask _ hopen _ => exact Bool.noConfusion (hs.symm.trans hopen)
  | @ask i j first accepted hopen hrest ih =>
    cases hsecond with
    | settled hs => exact Bool.noConfusion (hs.symm.trans hopen)
    | @ask _ _ second answered _ hrest' =>
      have hparts := hle _ List.mem_cons_self _ List.mem_cons_self rfl
      by_cases hsame : accepted = answered
      · subst hsame
        refine ih hrest' (narrow_midpoint_low_lt_high accepted hopen) ?_
        intro q hq r hr
        exact hle q (List.mem_cons_of_mem _ hq) r (List.mem_cons_of_mem _ hr)
      · cases accepted with
        | true => exact absurd (hparts rfl).symm hsame
        | false =>
          have hanswered : answered = true := by simpa using hsame
          subst hanswered
          have hj := hrest.settlement (narrow_midpoint_low_lt_high false hopen)
          have hk := hrest'.settlement (narrow_midpoint_low_lt_high true hopen)
          have hlow : i.midpoint ≤ j.low := hj.low_le
          have hhigh : k.high ≤ i.midpoint := hk.high_le
          have hadj := hj.adjacent
          omega

/-- Both halves of an interval have half its width, up to rounding. -/
theorem narrow_midpoint_halves (i : Interval) (accepted : Bool) :
    i.width ≤ 2 * (i.narrow i.midpoint accepted).width + 1 ∧
      2 * (i.narrow i.midpoint accepted).width ≤ i.width + 1 := by
  cases accepted <;> simp only [narrow_true, narrow_false, width, midpoint] <;> omega

theorem Bisected.length_le {i j : Interval} {queries : List Query} (h : Bisected i queries j) :
    ∀ n : Nat, i.width ≤ 2 ^ n → queries.length ≤ n := by
  induction h with
  | settled => intro n _; exact Nat.zero_le n
  | @ask i j queries accepted hopen _ ih =>
    intro n hn
    have hw := one_lt_width hopen
    have hh := i.narrow_midpoint_halves accepted
    cases n with
    | zero => simp only [Int.pow_zero] at hn; omega
    | succ n =>
      rw [Int.pow_succ] at hn
      have hrest := ih n (by omega)
      simp only [List.length_cons]
      omega

theorem Bisected.le_length {i j : Interval} {queries : List Query} (h : Bisected i queries j) :
    ∀ n : Nat, 2 ^ n ≤ i.width → n ≤ queries.length := by
  induction h with
  | @settled i hs =>
    intro n hn
    have hw := width_le_one hs
    cases n with
    | zero => exact Nat.le_refl 0
    | succ n =>
      rw [Int.pow_succ] at hn
      have hpos : (0 : Int) < 2 ^ n := Int.pow_pos (by decide)
      omega
  | @ask i j queries accepted _ _ ih =>
    intro n hn
    have hh := i.narrow_midpoint_halves accepted
    cases n with
    | zero => exact Nat.zero_le _
    | succ n =>
      rw [Int.pow_succ] at hn
      have hrest := ih n (by omega)
      simp only [List.length_cons]
      omega

end HostProbe.Interval
