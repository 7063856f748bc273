import HostProbe.Proofs.CapacityBoundary
import HostProbe.Proofs.CapacityTranscript

/-!
Two runs of a probe side by side. A host that accepts more never gets a smaller report, although
the two searches may part early and try different scripts from then on; and a run that reports a
length could as well have been a run against a plain limit of that length.
-/

namespace HostProbe.Capacity.Prober

open HostProbe.Interval (Query)

variable {ε ε' σ τ : Type}

theorem Searched.answered {p : Prober} {host : Host Empty σ} {s : σ} {accepts : String → Bool}
    {queries : List Query} {j : Interval} (hdet : host.AnswersBy accepts)
    (h : Searched p (p.probe host s) queries j) {q : Query} (hq : q ∈ queries) :
    q.accepted = accepts (p.padded (9996 - q.offset).toNat) :=
  probe_calls_answered hdet _ (h.call_mem hq)

theorem unusableLength_le (p : Prober) (host : Host Empty σ) (s : σ) :
    unusableLength ≤ (p.probe host s).value.maxLength := by
  rcases p.probe_cases host s with ⟨_, hvalue⟩ | ⟨queries, j, h⟩
  · rw [hvalue]
    exact Int.le_refl _
  · have hhigh : j.high ≤ 9997 := h.settlement.high_le
    have hlen := p.candidateLength_eq j.high
    rw [h.value_eq]
    simp only [report, unusableLength, shortest] at hlen ⊢
    omega

/-- The report is monotone in the host, whatever the two sets of accepted scripts look like. -/
theorem probe_maxLength_le_of_accepts_more (p : Prober) (host : Host Empty σ) (s : σ)
    (other : Host Empty τ) (t : τ) (accepts accepts' : String → Bool)
    (hdet : host.AnswersBy accepts) (hdet' : other.AnswersBy accepts')
    (hmore : ∀ script, accepts script = true → accepts' script = true) :
    (p.probe host s).value.maxLength ≤ (p.probe other t).value.maxLength := by
  cases hmin : accepts p.minimalScript with
  | false =>
    rw [value_of_rejected hdet hmin]
    exact p.unusableLength_le other t
  | true =>
    obtain ⟨first, j, h⟩ := searched_of_accepted (s := s) hdet hmin
    obtain ⟨second, k, h'⟩ := searched_of_accepted (s := t) hdet' (hmore _ hmin)
    -- equal offsets are equal scripts, so the answers of the two searches can be compared
    have hhigh : k.high ≤ j.high := by
      refine h.bisected.high_le_high h'.bisected (by decide) ?_
      intro q hq r hr hoffset haccepted
      rw [h.answered hdet hq, hoffset] at haccepted
      rw [h'.answered hdet' hr]
      exact hmore _ haccepted
    have hj := p.candidateLength_eq j.high
    have hk := p.candidateLength_eq k.high
    rw [h.value_eq, h'.value_eq]
    simp only [report]
    omega

theorem probe_maxLength_le_of_residues :
    let sixth : String → Bool := fun script => script.length % 6 == 2
    let third : String → Bool := fun script => script.length % 3 == 2
    (∀ script, sixth script = true → third script = true) ∧
      (standard.probe (Host.ofPredicate sixth : Host Empty Unit) ()).value.maxLength ≤
        (standard.probe (Host.ofPredicate third : Host Empty Unit) ()).value.maxLength := by
  intro sixth third
  have hmore : ∀ script, sixth script = true → third script = true := by
    intro script h
    simp only [sixth, third, beq_iff_eq] at h ⊢
    omega
  exact ⟨hmore, probe_maxLength_le_of_accepts_more standard _ () _ () sixth third
    (Host.ofPredicate_answersBy sixth) (Host.ofPredicate_answersBy third) hmore⟩

/-- Every call of a search is answered as the reported length would answer it. -/
theorem Searched.calls_explained {p : Prober} {run : Run ε σ Report} {queries : List Query}
    {j : Interval} (h : Searched p run queries j) (hroom : p.shortest ≤ p.candidateLength j.high) :
    ∀ c ∈ run.calls, c.accepted = decide (c.script.length ≤ (p.candidateLength j.high).toNat) := by
  intro c hc
  have hmin := p.length_minimalScript
  rw [h.calls_eq] at hc
  rw [Bool.eq_iff_iff, decide_eq_true_iff]
  rcases List.mem_cons.mp hc with rfl | hc
  · simp only [true_iff]
    omega
  · obtain ⟨q, hq, rfl⟩ := List.mem_map.mp hc
    rw [call_accepted, h.accepted_iff_length_le hq]
    omega

/-- A search in which something is accepted reports room for the shortest script. -/
theorem Searched.shortest_le {p : Prober} {run : Run ε σ Report} {queries : List Query}
    {j : Interval} (h : Searched p run queries j) {q : Query} (hq : q ∈ queries)
    (haccepted : q.accepted = true) : p.shortest ≤ p.candidateLength j.high := by
  have hfits := (h.accepted_iff_length_le hq).mp haccepted
  have hoff := h.offset_bounds hq
  rw [h.length_script hq, candidateLength_eq] at hfits
  omega

/-- A run that reports a length with room for the shortest script is the run against the plain
limit of that length: the same scripts, the same answers, the same report. -/
theorem probe_replays_as_limit (p : Prober) (host : Host ε σ) (s : σ) (t : τ) (report : Report)
    (hreport : (p.probe host s).result = .ok report) (hroom : p.shortest ≤ report.maxLength) :
    let replay := p.probe (Host.limit report.maxLength.toNat : Host ε' τ) t
    replay.calls = (p.probe host s).calls ∧ replay.result = .ok report := by
  rcases p.probe_run host s with ⟨e, he⟩ | ⟨_, hr⟩ | ⟨queries, j, h⟩
  · exact nomatch he.symm.trans hreport
  · obtain rfl : p.unusableReport = report := Except.ok.inj (hr.symm.trans hreport)
    simp only [shortest, unusableReport, unusableLength] at hroom
    omega
  · -- the limit is known only from the finished run, which already explains each of its answers
    obtain rfl : p.report (1 + queries.length) j.high = report :=
      Except.ok.inj (h.result_eq.symm.trans hreport)
    exact Dialogue.play_replay (Host.limit_answersBy _) p.dialogue s t hreport
      (h.calls_explained hroom)

def alternating : Host Empty Bool := .ofMachine fun answer _ => (answer, !answer)

theorem search_open (p : Prober) (calls : Nat) {i : Interval} (hopen : i.isSettled = false) :
    p.search calls i = .ask (p.candidate (wordOfOffset i.midpoint)) fun accepted =>
      .note (p.probeRecord i.midpoint accepted)
        (p.search (calls + 1) (i.narrow i.midpoint accepted)) := by
  rw [search, dif_neg (by simp [hopen])]

theorem alternating_search (p : Prober) (calls : Nat) {i : Interval} (hopen : i.isSettled = false)
    (answer : Bool) : ((p.search calls i).play alternating answer).calls =
      ⟨p.candidate (wordOfOffset i.midpoint), answer⟩ ::
        ((p.search (calls + 1) (i.narrow i.midpoint answer)).play alternating (!answer)).calls := by
  rw [p.search_open calls hopen]
  rfl

theorem alternating_accepts (p : Prober) :
    ∃ c ∈ ((p.search 1 searchInterval).play alternating false).calls, c.accepted = true := by
  rw [p.alternating_search 1 (by decide), p.alternating_search 2 (by decide)]
  exact ⟨_, List.mem_cons_of_mem _ List.mem_cons_self, rfl⟩

theorem probe_replays_as_limit_of_alternating :
    let run := standard.probe alternating true
    let replay := standard.probe (Host.limit run.value.maxLength.toNat : Host Empty Unit) ()
    14 ≤ run.value.maxLength ∧ replay.calls = run.calls ∧ replay.result = .ok run.value := by
  intro run replay
  have hroom : standard.shortest ≤ run.value.maxLength := by
    rcases standard.probe_cases alternating true with ⟨hcalls, _⟩ | ⟨queries, j, h⟩
    · cases hcalls
    · have hplayed : run.calls = ⟨standard.minimalScript, true⟩ ::
          ((standard.search 1 searchInterval).play alternating false).calls := rfl
      obtain ⟨c, hc, haccepted⟩ := standard.alternating_accepts
      rw [← (List.cons.inj (h.calls_eq.symm.trans hplayed)).2] at hc
      obtain ⟨q, hq, rfl⟩ := List.mem_map.mp hc
      change _ ≤ (standard.probe alternating true).value.maxLength
      rw [h.value_eq]
      exact h.shortest_le hq haccepted
  exact ⟨hroom,
    probe_replays_as_limit standard alternating true () run.value run.result_eq_ok hroom⟩

end HostProbe.Capacity.Prober
