import HostProbe.Proofs.CapacityRun
import Mathlib.Data.List.Nodup

/-!
The transcript of a probe, for hosts that may answer as they like: differently at different times,
and without regard to length. The report explains every answer of the search, and the calls
follow a fixed discipline.
-/

namespace HostProbe.Capacity.Prober

open HostProbe.Interval (Query Bisected)

variable {ε σ : Type}

namespace Searched

variable {p : Prober} {run : Run ε σ Report} {queries : List Query} {j : Interval}

theorem accepted_iff_length_le (h : Searched p run queries j) {q : Query} (hq : q ∈ queries) :
    q.accepted = true ↔ ((p.call q).script.length : Int) ≤ p.candidateLength j.high := by
  have hadj := h.settlement.adjacent
  rw [h.length_script hq, candidateLength_eq, candidateLength_eq]
  constructor
  · intro ha
    have habove := h.settlement.accepted_above q hq ha
    omega
  · intro hle
    by_contra ha
    have hbelow := h.settlement.rejected_below q hq (Bool.eq_false_of_not_eq_true ha)
    omega

/-- The upper bound never moved exactly when nothing was accepted after the first call. -/
theorem high_eq_iff_all_rejected (h : Searched p run queries j) :
    j.high = 9997 ↔ ∀ q ∈ queries, q.accepted = false := by
  constructor
  · intro he q hq
    by_contra ha
    have habove := h.settlement.accepted_above q hq (Bool.eq_true_of_not_eq_false ha)
    have hoff := h.offset_bounds hq
    omega
  · intro hall
    rcases h.high_tried with he | hm
    · exact he
    · exact Bool.noConfusion (hall _ hm)

theorem padding_distinct (h : Searched p run queries j) :
    (queries.map fun q => (9996 - q.offset).toNat).Nodup := by
  have hoffsets := h.settlement.distinct
  have hfresh : ((queries.map Query.offset).map fun o => (9996 - o).toNat).Nodup := by
    refine List.Nodup.map_on ?_ hoffsets
    intro a ha b hb hab
    obtain ⟨q, hq, rfl⟩ := List.mem_map.mp ha
    obtain ⟨r, hr, rfl⟩ := List.mem_map.mp hb
    have hqo := h.offset_bounds hq
    have hro := h.offset_bounds hr
    omega
  rwa [List.map_map] at hfresh

theorem length_calls (h : Searched p run queries j) : run.calls.length = 1 + queries.length := by
  rw [h.calls_eq, List.length_cons, List.length_map, Nat.add_comm]

theorem scripts_eq (h : Searched p run queries j) :
    (queries.map fun q => (p.call q).script) =
      (queries.map fun q => (9996 - q.offset).toNat).map p.padded := by
  rw [List.map_map]
  apply List.map_congr_left
  intro q hq
  rw [h.call_eq hq]
  rfl

theorem offset_unchanged (h : Searched p run queries j) {q : Query} (hq : q ∈ queries) :
    (wordOfOffset q.offset : Int) = q.offset ∧
      min (wordOfOffset q.offset) filler.utf8ByteSize = wordOfOffset q.offset := by
  have hoff := h.offset_bounds hq
  have hword := wordOfOffset_eq hoff.1 hoff.2
  refine ⟨hword, ?_⟩
  rw [utf8ByteSize_filler, fillerLength]
  omega

end Searched

theorem recording_probe (p : Prober) (host : Host ε σ) (s : σ) :
    (p.probe host.recording (s, [])).state.2 = (p.probe host s).calls := by
  have hstate := Dialogue.play_recording host p.dialogue s []
  exact congrArg Prod.snd hstate

/-- Every answer of the search is explained by the reported length. A search in which everything
is rejected reports one less than the length of the script that was accepted before it. -/
theorem probe_transcript_explained (p : Prober) (host : Host Empty σ) (s : σ) :
    let run := p.probe host s
    ∃ first search, run.calls = first :: search ∧
      (first.accepted = true →
        (∀ c ∈ search, c.accepted = true ↔ (c.script.length : Int) ≤ run.value.maxLength) ∧
        ((∃ c ∈ search, c.accepted = true ∧ (c.script.length : Int) = run.value.maxLength) ∨
          run.value.maxLength = p.shortest - 1) ∧
        (run.value.maxLength = p.shortest - 1 ↔ ∀ c ∈ search, c.accepted = false) ∧
        (run.value.maxLength = p.shortest + 9996 ∨
          ∃ c ∈ search, c.accepted = false ∧
            (c.script.length : Int) = run.value.maxLength + 1)) := by
  intro run
  rcases p.probe_cases host s with ⟨hcalls, _⟩ | ⟨queries, j, h⟩
  · exact ⟨_, _, hcalls, fun hfirst => Bool.noConfusion hfirst⟩
  refine ⟨_, _, h.calls_eq, fun _ => ?_⟩
  have hadj := h.settlement.adjacent
  have hvalue : run.value.maxLength = p.candidateLength j.high := by
    change (p.probe host s).value.maxLength = _
    rw [h.value_eq]
    rfl
  have hlen := p.candidateLength_eq j.high
  rw [hvalue]
  refine ⟨?_, ?_, ?_, ?_⟩
  · intro c hc
    obtain ⟨q, hq, rfl⟩ := List.mem_map.mp hc
    exact h.accepted_iff_length_le hq
  · rcases h.high_tried with he | hm
    · exact Or.inr (by omega)
    · exact Or.inl ⟨_, List.mem_map_of_mem hm, rfl, h.length_script hm⟩
  · have hsentinel : p.candidateLength j.high = p.shortest - 1 ↔ j.high = 9997 := by omega
    rw [hsentinel, h.high_eq_iff_all_rejected]
    simp only [List.forall_mem_map, call_accepted]
  · rcases h.low_tried with he | hm
    · exact Or.inl (by omega)
    · refine Or.inr ⟨_, List.mem_map_of_mem hm, rfl, ?_⟩
      rw [h.length_script hm, candidateLength_eq]
      dsimp only
      omega

def acceptOnce : Host Empty Bool := .ofMachine fun fresh _ => (fresh, false)

theorem acceptOnce_rejects {α : Type} (d : Dialogue α) :
    ∀ c ∈ (d.play acceptOnce false).calls, c.accepted = false := by
  induction d with
  | done a => intro c hc; cases hc
  | note r d ih => exact ih
  | ask script next ih =>
    intro c hc
    rcases List.mem_cons.mp hc with rfl | hc
    · rfl
    · exact ih false c hc

/-- The length below the shortest script is really reported. -/
theorem probe_transcript_explained_once :
    (standard.probe acceptOnce true).value.maxLength = 13 := by
  obtain ⟨first, search, hcalls, hexplained⟩ := probe_transcript_explained standard acceptOnce true
  have hplayed : (standard.probe acceptOnce true).calls =
      ⟨standard.minimalScript, true⟩ ::
        ((standard.search 1 searchInterval).play acceptOnce false).calls := rfl
  obtain ⟨hfirst, hsearch⟩ := List.cons.inj (hcalls.symm.trans hplayed)
  obtain ⟨_, _, hsentinel, _⟩ := hexplained (congrArg Call.accepted hfirst)
  have hrejected : ∀ c ∈ search, c.accepted = false := by
    rw [hsearch]
    exact acceptOnce_rejects _
  exact (hsentinel.mpr hrejected).trans (by decide)

/-- The calls of a probe. A host that keeps its own list has the calls of the run on it. After the
shortest script the offsets are the midpoints of a bisection; each lies inside the filler, where
reading it as a word and cutting at the end of the filler change nothing. -/
theorem probe_call_discipline (p : Prober) (host : Host Empty σ) (s : σ) :
    let run := p.probe host s
    ∃ (report : Report) (first : Call) (queries : List Query) (ks : List Nat),
      run.result = .ok report ∧ report.calls = run.calls.length ∧
      (p.probe host.recording (s, [])).state.2 = run.calls ∧
      run.calls = first :: queries.map p.call ∧ first.script = "1;" ++ p.body ∧
      (first.accepted = false → run.calls.length = 1) ∧
      (first.accepted = true → run.calls.length = 14 ∨ run.calls.length = 15) ∧
      (first.accepted = true → ∃ j, Bisected searchInterval queries j) ∧
      (queries.map fun q => (p.call q).script) = ks.map p.padded ∧
      ks.Nodup ∧ (∀ k ∈ ks, k ≤ 9996) ∧
      ∀ q ∈ queries, 0 ≤ q.offset ∧ q.offset ≤ 9996 ∧
        (wordOfOffset q.offset : Int) = q.offset ∧
        min (wordOfOffset q.offset) filler.utf8ByteSize = wordOfOffset q.offset ∧
        p.candidateLength q.offset = (p.call q).script.length := by
  intro run
  have hrecorded : (p.probe host.recording (s, [])).state.2 = run.calls := p.recording_probe host s
  rcases p.probe_cases host s with ⟨hcalls, hvalue⟩ | ⟨queries, j, h⟩
  · refine ⟨_, ⟨p.minimalScript, false⟩, [], [], run.result_eq_ok, ?_, hrecorded, hcalls, rfl,
      fun _ => congrArg List.length hcalls, ?_, ?_, rfl, List.nodup_nil, ?_, ?_⟩
    · change (p.probe host s).value.calls = (p.probe host s).calls.length
      rw [hvalue, hcalls]
      rfl
    · intro hfirst; cases hfirst
    · intro hfirst; cases hfirst
    · intro k hk; cases hk
    · intro q hq; cases hq
  · have hlength := h.length_calls
    have hcount := h.count
    refine ⟨_, ⟨p.minimalScript, true⟩, queries, _, h.result_eq, hlength.symm, hrecorded,
      h.calls_eq, rfl, ?_, ?_, fun _ => ⟨j, h.bisected⟩, h.scripts_eq, h.padding_distinct, ?_, ?_⟩
    · intro hfirst; cases hfirst
    · intro _
      change (p.probe host s).calls.length = 14 ∨ (p.probe host s).calls.length = 15
      omega
    · intro k hk
      obtain ⟨q, hq, rfl⟩ := List.mem_map.mp hk
      have hoff := h.offset_bounds hq
      omega
    · intro q hq
      have hoff := h.offset_bounds hq
      have hsame := h.offset_unchanged hq
      exact ⟨hoff.1, hoff.2, hsame.1, hsame.2, (h.length_script hq).symm⟩

end HostProbe.Capacity.Prober
