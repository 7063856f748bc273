import HostProbe.Proofs.CapacityRun
import Mathlib.Order.Bounds.Basic

/-!
The boundary that a probe reports, against hosts that answer by a predicate on scripts. Without
any assumption on the predicate the reported script was accepted and the next longer one was
rejected; if acceptance is downward closed in the filler, it is the longest accepted one.
-/

namespace HostProbe.Capacity.Prober

open HostProbe.Interval (Query)

variable {σ : Type} {p : Prober} {host : Host Empty σ} {s : σ} {accepts : String → Bool}

/-- A script with less filler is accepted whenever one with more is. -/
def DownwardClosed (p : Prober) (accepts : String → Bool) : Prop :=
  ∀ k l, k ≤ l → l ≤ 9996 → accepts (p.padded l) = true → accepts (p.padded k) = true

theorem probe_calls_answered (hdet : host.AnswersBy accepts) :
    ∀ c ∈ (p.probe host s).calls, c.accepted = accepts c.script :=
  Dialogue.calls_answered hdet p.dialogue s

theorem value_of_rejected (hdet : host.AnswersBy accepts) (hmin : accepts p.minimalScript = false) :
    (p.probe host s).value = p.unusableReport := by
  rcases p.probe_cases host s with ⟨_, hv⟩ | ⟨queries, j, h⟩
  · exact hv
  · have hans := probe_calls_answered hdet ⟨p.minimalScript, true⟩
      (by rw [h.calls_eq]; exact List.mem_cons_self)
    exact Bool.noConfusion (hans.trans hmin)

theorem searched_of_accepted (hdet : host.AnswersBy accepts)
    (hmin : accepts p.minimalScript = true) :
    ∃ queries j, Searched p (p.probe host s) queries j := by
  rcases p.probe_cases host s with ⟨hc, _⟩ | h
  · have hans := probe_calls_answered hdet ⟨p.minimalScript, false⟩
      (by rw [hc]; exact List.mem_cons_self)
    exact Bool.noConfusion (hans.trans hmin)
  · exact h

/-- The last offset of the filler stands for the shortest script itself, so it cannot be rejected
in the search; hence the bound 9997, which no call has tried, is never the result. -/
theorem Searched.high_le (hdet : host.AnswersBy accepts) (hmin : accepts p.minimalScript = true)
    {queries : List Query} {j : Interval} (h : Searched p (p.probe host s) queries j) :
    j.high ≤ 9996 := by
  have hadj := h.settlement.adjacent
  have hbound : j.high ≤ 9997 := h.settlement.high_le
  by_contra hgt
  rcases h.low_tried with he | hm
  · omega
  · have hzero : (9996 - j.low).toNat = 0 := by omega
    have hmem := h.call_mem hm
    rw [hzero, padded_zero] at hmem
    exact Bool.noConfusion ((probe_calls_answered hdet _ hmem).trans hmin)

/-- The amount of filler that is reported was accepted, and one more was rejected. -/
theorem local_boundary (hdet : host.AnswersBy accepts) (hmin : accepts p.minimalScript = true) :
    ∃ k : Nat, k ≤ 9996 ∧ (p.probe host s).value.maxLength = p.shortest + k ∧
      (p.probe host s).value.headroom = some (p.shortest + k - p.body.length) ∧
      ⟨p.padded k, true⟩ ∈ (p.probe host s).calls ∧
      (k = 9996 ∨ ⟨p.padded (k + 1), false⟩ ∈ (p.probe host s).calls) := by
  obtain ⟨queries, j, h⟩ := searched_of_accepted (s := s) hdet hmin
  have hadj := h.settlement.adjacent
  have hhigh := h.high_le hdet hmin
  have hlow : -1 ≤ j.low := h.settlement.low_le
  have hlen : p.candidateLength j.high = p.shortest + (9996 - j.high).toNat := by
    rw [candidateLength_eq]
    omega
  refine ⟨(9996 - j.high).toNat, by omega, ?_, ?_, ?_, ?_⟩
  · rw [h.value_eq]
    exact hlen
  · rw [h.value_eq, ← hlen]
    rfl
  · rcases h.high_tried with he | hm
    · omega
    · have hmem := h.call_mem hm
      exact hmem
  · rcases h.low_tried with he | hm
    · exact Or.inl (by omega)
    · have hmem := h.call_mem hm
      have hk : (9996 - j.low).toNat = (9996 - j.high).toNat + 1 := by omega
      rw [hk] at hmem
      exact Or.inr hmem

/-- Soundness for every predicate, monotone or not: the report names a script that was tried and
accepted, with a rejected neighbour unless all filler is used up. -/
theorem probe_names_local_boundary (p : Prober) (host : Host Empty σ) (s : σ)
    (accepts : String → Bool) (hdet : host.AnswersBy accepts)
    (hmin : accepts ("1;" ++ p.body) = true) :
    let run := p.probe host s
    let length := run.value.maxLength
    let k := (length - p.shortest).toNat
    p.shortest ≤ length ∧ length ≤ p.shortest + 9996 ∧
      accepts (p.padded k) = true ∧ ⟨p.padded k, true⟩ ∈ run.calls ∧
      (length = p.shortest + 9996 ∨
        accepts (p.padded (k + 1)) = false ∧ ⟨p.padded (k + 1), false⟩ ∈ run.calls) := by
  intro run length k
  obtain ⟨m, hle, hlen, _, hacc, hrej⟩ := local_boundary (p := p) (s := s) hdet hmin
  have hlength : length = p.shortest + m := hlen
  have hk : k = m := by
    change (length - p.shortest).toNat = m
    omega
  rw [hk]
  refine ⟨by omega, by omega, (probe_calls_answered hdet _ hacc).symm, hacc, ?_⟩
  rcases hrej with he | hrej
  · exact Or.inl (by omega)
  · exact Or.inr ⟨(probe_calls_answered hdet _ hrej).symm, hrej⟩

theorem probe_names_local_boundary_of_residue :
    let accepts : String → Bool := fun script => script.length % 3 == 2
    let run := standard.probe (Host.ofPredicate accepts : Host Empty Unit) ()
    let k := (run.value.maxLength - 14).toNat
    (Host.ofPredicate accepts : Host Empty Unit).AnswersBy accepts ∧
      accepts ("1;" ++ standard.body) = true ∧ 14 ≤ run.value.maxLength ∧
      run.value.maxLength ≤ 10010 ∧ accepts (standard.padded k) = true ∧
      ⟨standard.padded k, true⟩ ∈ run.calls ∧
      (run.value.maxLength = 10010 ∨
        accepts (standard.padded (k + 1)) = false ∧
          ⟨standard.padded (k + 1), false⟩ ∈ run.calls) := by
  intro accepts run k
  have hdet : (Host.ofPredicate accepts : Host Empty Unit).AnswersBy accepts :=
    Host.ofPredicate_answersBy accepts
  have hmin : accepts ("1;" ++ standard.body) = true := by decide
  exact ⟨hdet, hmin, probe_names_local_boundary standard _ () accepts hdet hmin⟩

theorem DownwardClosed.isGreatest (hclosed : p.DownwardClosed accepts) {k : Nat} (hle : k ≤ 9996)
    (hacc : accepts (p.padded k) = true) (hrej : k = 9996 ∨ accepts (p.padded (k + 1)) = false) :
    IsGreatest {l | l ≤ 9996 ∧ accepts (p.padded l) = true} k := by
  refine ⟨⟨hle, hacc⟩, ?_⟩
  rintro l ⟨hl, hal⟩
  rcases hrej with he | hrej
  · omega
  · by_contra hlt
    have hnext := hclosed (k + 1) l (by omega) hl hal
    exact Bool.noConfusion (hrej.symm.trans hnext)

theorem limit_downwardClosed (p : Prober) (n : Nat) :
    p.DownwardClosed fun script => decide (script.length ≤ n) := by
  intro k l hkl _ hl
  have hk := p.length_padded k
  have hll := p.length_padded l
  have hle : (p.padded l).length ≤ n := of_decide_eq_true hl
  exact decide_eq_true (by omega)

/-- Against a length limit that leaves room for the shortest script, the limit itself is found,
as far as the filler reaches. -/
theorem limit_boundary (p : Prober) (s : σ) {n : Nat} (hroom : p.shortest ≤ n) :
    (p.probe (Host.limit n) s).value.maxLength = min (n : Int) (p.shortest + 9996) ∧
      (p.probe (Host.limit n) s).value.headroom =
        some (min (n : Int) (p.shortest + 9996) - p.body.length) := by
  have hdet : (Host.limit n : Host Empty σ).AnswersBy _ := Host.limit_answersBy n
  have hmin := p.length_minimalScript
  obtain ⟨k, hle, hlen, hhead, hacc, hrej⟩ :=
    local_boundary (p := p) (s := s) hdet (decide_eq_true (by omega))
  have hfits : (p.padded k).length ≤ n :=
    of_decide_eq_true (probe_calls_answered hdet _ hacc).symm
  have hk := p.length_padded k
  have hvalue : p.shortest + k = min (n : Int) (p.shortest + 9996) := by
    rcases hrej with he | hrej
    · omega
    · have hlong : ¬ (p.padded (k + 1)).length ≤ n :=
        of_decide_eq_false (probe_calls_answered hdet _ hrej).symm
      have hk' := p.length_padded (k + 1)
      omega
  rw [hlen, hhead, hvalue]
  exact ⟨rfl, rfl⟩

theorem limit_unusable (p : Prober) (s : σ) {n : Nat} (hroom : (n : Int) < p.shortest) :
    (p.probe (Host.limit n : Host Empty σ) s).value = p.unusableReport := by
  have hmin := p.length_minimalScript
  exact value_of_rejected (Host.limit_answersBy n) (decide_eq_false (by omega))

/-- Exactness: under downward closure the reported length is that of the longest accepted script;
a length limit is found exactly, and its headroom is the room left in front of the body. -/
theorem probe_exact_boundary (p : Prober) (s : σ) :
    (∀ (host : Host Empty σ) (accepts : String → Bool), host.AnswersBy accepts →
      p.DownwardClosed accepts →
        (accepts ("1;" ++ p.body) = false → (p.probe host s).value.maxLength = -1) ∧
        (accepts ("1;" ++ p.body) = true →
          ∃ k : Nat, IsGreatest {l | l ≤ 9996 ∧ accepts (p.padded l) = true} k ∧
            (p.probe host s).value.maxLength = p.shortest + k)) ∧
    ∀ n : Nat,
      (p.probe (Host.limit n) s).value.maxLength =
        (if (n : Int) < p.shortest then -1 else min (n : Int) (p.shortest + 9996)) ∧
      (p.shortest ≤ n → (n : Int) ≤ p.shortest + 9996 →
        ∃ room, (p.probe (Host.limit n) s).value.headroom = some room ∧
          ∀ before : String, (Host.limit n : Host Empty σ).Answers s (before ++ p.body) true ↔
            (before.length : Int) ≤ room) := by
  constructor
  · intro host accepts hdet hclosed
    constructor
    · intro hmin
      rw [value_of_rejected hdet hmin]
      rfl
    · intro hmin
      obtain ⟨k, hle, hlen, _, hacc, hrej⟩ := local_boundary (p := p) (s := s) hdet hmin
      refine ⟨k, hclosed.isGreatest hle (probe_calls_answered hdet _ hacc).symm ?_, hlen⟩
      exact hrej.imp id fun h => (probe_calls_answered hdet _ h).symm
  · intro n
    constructor
    · split
      · next hroom =>
        rw [p.limit_unusable s hroom]
        rfl
      · next hroom => exact (p.limit_boundary s (by omega)).1
    · intro hroom hreach
      refine ⟨_, (p.limit_boundary s hroom).2, ?_⟩
      intro before
      rw [Host.limit_answers_true_iff, String.length_append]
      omega

theorem probe_exact_boundary_hundred :
    let accepts : String → Bool := fun script => decide (script.length ≤ 100)
    let run := standard.probe (Host.limit 100 : Host Empty Unit) ()
    (Host.limit 100 : Host Empty Unit).AnswersBy accepts ∧ standard.DownwardClosed accepts ∧
      (∃ k : Nat, IsGreatest {l | l ≤ 9996 ∧ accepts (standard.padded l) = true} k ∧
        run.value.maxLength = 14 + k) ∧
      run.value.maxLength = 100 ∧
      ∃ room, run.value.headroom = some room ∧ ∀ before : String,
        (Host.limit 100 : Host Empty Unit).Answers () (before ++ "return true;") true ↔
          (before.length : Int) ≤ room := by
  intro accepts run
  have hdet : (Host.limit 100 : Host Empty Unit).AnswersBy accepts := Host.limit_answersBy 100
  have hclosed : standard.DownwardClosed accepts := limit_downwardClosed standard 100
  obtain ⟨hgeneral, hlimit⟩ := probe_exact_boundary standard ()
  refine ⟨hdet, hclosed, (hgeneral _ accepts hdet hclosed).2 (by decide), ?_, ?_⟩
  · exact (hlimit 100).1.trans (by decide)
  · exact (hlimit 100).2 (by decide) (by decide)

end HostProbe.Capacity.Prober
