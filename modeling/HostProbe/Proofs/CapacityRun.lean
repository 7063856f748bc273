import HostProbe.Capacity.Prober
import HostProbe.Proofs.Bisection
import HostProbe.Proofs.Dialogue
import HostProbe.Proofs.Padding
import Mathlib.Data.String.Basic

/-!
Runs of a capacity probe. Every run against a host that answers is either the one rejected call
of the shortest script, or that call followed by a bisection of the filler offsets; nothing else
is said here about the host. The scripts of a bisection are runs of filler in front of the
shortest script, one length for each offset.
-/

namespace HostProbe.Capacity.Prober

open HostProbe.Interval (Query Bisected Settlement)

variable {ε σ : Type}

/-- The script with `k` characters of filler. -/
def padded (p : Prober) (k : Nat) : String :=
  String.ofList (List.replicate k '~') ++ ("1;" ++ p.body)

def shortest (p : Prober) : Int := 2 + p.body.length

def call (p : Prober) (q : Query) : Call :=
  ⟨p.candidate (wordOfOffset q.offset), q.accepted⟩

@[simp] theorem call_accepted (p : Prober) (q : Query) : (p.call q).accepted = q.accepted := rfl

theorem padded_zero (p : Prober) : p.padded 0 = p.minimalScript := by
  rw [padded, List.replicate_zero, String.ofList_nil, String.empty_append]
  rfl

theorem length_minimalScript (p : Prober) : (p.minimalScript.length : Int) = p.shortest := by
  have htwo : "1;".length = 2 := by decide
  rw [minimalScript, String.length_append, htwo, shortest]
  omega

theorem length_padded (p : Prober) (k : Nat) : ((p.padded k).length : Int) = p.shortest + k := by
  have hmin := p.length_minimalScript
  rw [minimalScript] at hmin
  rw [padded, String.length_append, String.length_ofList, List.length_replicate]
  omega

theorem candidateLength_eq (p : Prober) (offset : Int) :
    p.candidateLength offset = p.shortest + 9996 - offset := by
  rw [candidateLength, length_minimalScript, fillerLength]
  omega

theorem filler_eq : filler = String.ofList (List.replicate fillerLength '~') :=
  Text.padding_singleton '~' fillerLength

theorem utf8Len_tildes (n : Nat) : String.utf8Len (List.replicate n '~') = n := by
  induction n with
  | zero => rfl
  | succ n ih =>
    have hc : '~'.utf8Size = 1 := by decide
    rw [List.replicate_succ, String.utf8Len_cons, ih, hc]

theorem utf8ByteSize_filler : filler.utf8ByteSize = fillerLength := by
  rw [filler_eq, String.utf8ByteSize_ofList, utf8Len_tildes]

/-- Every character of the filler is one byte, so cutting it at a byte leaves a run of filler. -/
theorem candidate_eq_padded (p : Prober) {offset : Nat} (h : offset ≤ fillerLength) :
    p.candidate offset = p.padded (fillerLength - offset) := by
  have hsplit : List.replicate fillerLength '~' =
      List.replicate offset '~' ++ List.replicate (fillerLength - offset) '~' ++ [] := by
    rw [List.append_nil, List.replicate_append_replicate, Nat.add_sub_cancel' h]
  have hcut := String.extract_of_valid (List.replicate offset '~')
    (List.replicate (fillerLength - offset) '~') []
  rw [← hsplit, utf8Len_tildes, utf8Len_tildes, Nat.add_sub_cancel' h, ← filler_eq] at hcut
  have hend : filler.rawEndPos = ⟨fillerLength⟩ := by
    rw [filler_eq, String.rawEndPos_ofList, utf8Len_tildes]
  rw [candidate, utf8ByteSize_filler, Nat.min_eq_left h, hend, hcut]
  rfl

theorem wordOfOffset_eq {offset : Int} (h : 0 ≤ offset) (hle : offset ≤ 9996) :
    (wordOfOffset offset : Int) = offset := by
  rw [wordOfOffset]
  omega

theorem candidate_wordOfOffset (p : Prober) {offset : Int} (h : 0 ≤ offset)
    (hle : offset ≤ 9996) :
    p.candidate (wordOfOffset offset) = p.padded (9996 - offset).toNat := by
  have hw := wordOfOffset_eq h hle
  rw [p.candidate_eq_padded (show wordOfOffset offset ≤ fillerLength by rw [fillerLength]; omega)]
  congr 1
  rw [fillerLength]
  omega

/-- The search from an interval on: a bisection of it, unless the host breaks down. -/
theorem search_run (p : Prober) (host : Host ε σ) (calls : Nat) (i : Interval) (s : σ) :
    (∃ e, ((p.search calls i).play host s).result = .error e) ∨
      ∃ queries j, Bisected i queries j ∧
        ((p.search calls i).play host s).calls = queries.map p.call ∧
        ((p.search calls i).play host s).result =
          .ok (p.report (calls + queries.length) j.high) := by
  fun_induction search p calls i generalizing s with
  | case1 calls i hs r =>
    exact Or.inr ⟨[], i, .settled hs, rfl, rfl⟩
  | case2 calls i hs ih =>
    have hopen : i.isSettled = false := by simpa using hs
    cases hx : host.execute s (p.candidate (wordOfOffset i.midpoint)) with
    | error e =>
      rw [Dialogue.play_ask_error hx]
      exact Or.inl ⟨e, rfl⟩
    | ok reply =>
      rw [Dialogue.play_ask_ok hx]
      rcases ih reply.accepted reply.state with he | ⟨queries, j, hb, hcalls, hresult⟩
      · exact Or.inl he
      · refine Or.inr ⟨⟨i.midpoint, reply.accepted⟩ :: queries, j, .ask _ hopen hb, ?_, ?_⟩
        · exact congrArg (Call.mk _ _ :: ·) hcalls
        · rw [List.length_cons, Nat.add_comm queries.length 1, ← Nat.add_assoc]
          exact hresult

/-- A run that got past the shortest script: its other calls bisect the filler, and the last
interval of the bisection is reported. -/
structure Searched (p : Prober) (run : Run ε σ Report) (queries : List Query) (j : Interval) :
    Prop where
  bisected : Bisected searchInterval queries j
  calls_eq : run.calls = ⟨p.minimalScript, true⟩ :: queries.map p.call
  result_eq : run.result = .ok (p.report (1 + queries.length) j.high)

/-- The whole probe, against a host that may break down. -/
theorem probe_run (p : Prober) (host : Host ε σ) (s : σ) :
    (∃ e, (p.probe host s).result = .error e) ∨
      ((p.probe host s).calls = [⟨p.minimalScript, false⟩] ∧
        (p.probe host s).result = .ok p.unusableReport) ∨
      ∃ queries j, Searched p (p.probe host s) queries j := by
  simp only [probe, dialogue]
  cases hx : host.execute s p.minimalScript with
  | error e =>
    rw [Dialogue.play_ask_error hx]
    exact Or.inl ⟨e, rfl⟩
  | ok reply =>
    rw [Dialogue.play_ask_ok hx]
    cases ha : reply.accepted with
    | false => exact Or.inr (Or.inl ⟨rfl, rfl⟩)
    | true =>
      rcases p.search_run host 1 searchInterval reply.state with he | ⟨queries, j, hb, hc, hr⟩
      · exact Or.inl he
      · exact Or.inr (Or.inr ⟨queries, j, hb, congrArg (Call.mk _ _ :: ·) hc, hr⟩)

theorem probe_cases (p : Prober) (host : Host Empty σ) (s : σ) :
    ((p.probe host s).calls = [⟨p.minimalScript, false⟩] ∧
        (p.probe host s).value = p.unusableReport) ∨
      ∃ queries j, Searched p (p.probe host s) queries j := by
  rcases p.probe_run host s with ⟨e, _⟩ | ⟨hc, hr⟩ | hs
  · exact e.elim
  · exact Or.inl ⟨hc, Run.value_eq hr⟩
  · exact Or.inr hs

namespace Searched

variable {p : Prober} {run : Run ε σ Report} {queries : List Query} {j : Interval}

theorem settlement (h : Searched p run queries j) : Settlement searchInterval queries j :=
  h.bisected.settlement (by decide)

theorem value_eq {run : Run Empty σ Report} (h : Searched p run queries j) :
    run.value = p.report (1 + queries.length) j.high := Run.value_eq h.result_eq

theorem high_tried (h : Searched p run queries j) :
    j.high = 9997 ∨ ⟨j.high, true⟩ ∈ queries := h.settlement.high_tried

theorem low_tried (h : Searched p run queries j) :
    j.low = -1 ∨ ⟨j.low, false⟩ ∈ queries := h.settlement.low_tried

/-- The bounds of the search stand outside the filler and are never tried. -/
theorem offset_bounds (h : Searched p run queries j) {q : Query} (hq : q ∈ queries) :
    0 ≤ q.offset ∧ q.offset ≤ 9996 := by
  have hin := h.settlement.inside q hq
  simp only [searchInterval] at hin
  omega

theorem count (h : Searched p run queries j) : queries.length = 13 ∨ queries.length = 14 := by
  have hlow := h.bisected.le_length 13 (by decide)
  have hhigh := h.bisected.length_le 14 (by decide)
  omega

theorem call_eq (h : Searched p run queries j) {q : Query} (hq : q ∈ queries) :
    p.call q = ⟨p.padded (9996 - q.offset).toNat, q.accepted⟩ := by
  have hoff := h.offset_bounds hq
  rw [call, p.candidate_wordOfOffset hoff.1 hoff.2]

theorem call_mem (h : Searched p run queries j) {q : Query} (hq : q ∈ queries) :
    ⟨p.padded (9996 - q.offset).toNat, q.accepted⟩ ∈ run.calls := by
  rw [← h.call_eq hq, h.calls_eq]
  exact List.mem_cons_of_mem _ (List.mem_map_of_mem hq)

theorem length_script (h : Searched p run queries j) {q : Query} (hq : q ∈ queries) :
    ((p.call q).script.length : Int) = p.candidateLength q.offset := by
  have hoff := h.offset_bounds hq
  rw [h.call_eq hq, length_padded, candidateLength_eq]
  omega

end Searched

end HostProbe.Capacity.Prober
