import HostProbe.Proofs.CapacityTranscript

/-!
The parts of a report agree with each other and with the first answer of the host. Whether the
host was usable is read off a length of minus one, which no search can end with: even one that
rejects everything leaves a length of at least one.
-/

namespace HostProbe.Capacity.Prober

open HostProbe.Interval (Query isWord)

variable {ε σ : Type}

/-- What a report says about the answer to the shortest script. -/
structure Coherent (p : Prober) (accepted : Bool) (r : Report) : Prop where
  usable : r.isUsable = accepted
  headroom : r.headroom.isSome = accepted
  calls : 1 < r.calls ↔ accepted = true
  body : r.bodyLength = p.body.length
  room : ∀ h, r.headroom = some h → h = r.maxLength - p.body.length ∧ 1 ≤ h ∧ h ≤ 9998
  unusable : accepted = false → r = p.unusableReport

theorem coherent_unusableReport (p : Prober) : p.Coherent false p.unusableReport := by
  constructor
  · rfl
  · rfl
  · exact iff_of_false (Nat.lt_irrefl 1) Bool.false_ne_true
  · rfl
  · intro h hroom
    cases hroom
  · intro _
    rfl

theorem isUsable_of_pos {r : Report} (h : 1 ≤ r.maxLength) : r.isUsable = true := by
  apply decide_eq_true
  rw [unusableLength]
  omega

/-- The upper bound of a search stays within 9997, so at least one character of room is left. -/
theorem Searched.room_bounds {p : Prober} {run : Run ε σ Report} {queries : List Query}
    {j : Interval} (h : Searched p run queries j) :
    1 ≤ p.candidateLength j.high - p.body.length ∧
      p.candidateLength j.high - p.body.length ≤ 9998 := by
  have hadj := h.settlement.adjacent
  have hlow : -1 ≤ j.low := h.settlement.low_le
  have hhigh : j.high ≤ 9997 := h.settlement.high_le
  rw [candidateLength_eq, shortest]
  omega

theorem Searched.coherent {p : Prober} {run : Run ε σ Report} {queries : List Query}
    {j : Interval} (h : Searched p run queries j) :
    p.Coherent true (p.report (1 + queries.length) j.high) := by
  have hroom := h.room_bounds
  have hcount := h.count
  constructor
  · exact isUsable_of_pos (by simp only [report]; omega)
  · rfl
  · exact iff_of_true (by simp only [report]; omega) rfl
  · rfl
  · intro room hsome
    obtain rfl := Option.some.inj hsome
    exact ⟨rfl, hroom⟩
  · intro hfalse
    cases hfalse

/-- Every report that a run ends with is coherent with the first call of the run. -/
theorem probe_coherent {p : Prober} {host : Host ε σ} {s : σ} {r : Report}
    (hreport : (p.probe host s).result = .ok r) :
    ∃ accepted rest, (p.probe host s).calls = ⟨p.minimalScript, accepted⟩ :: rest ∧
      p.Coherent accepted r := by
  rcases p.probe_run host s with ⟨e, he⟩ | ⟨hcalls, hr⟩ | ⟨queries, j, h⟩
  · exact nomatch he.symm.trans hreport
  · obtain rfl := Except.ok.inj (hr.symm.trans hreport)
    exact ⟨false, [], hcalls, p.coherent_unusableReport⟩
  · obtain rfl := Except.ok.inj (h.result_eq.symm.trans hreport)
    exact ⟨true, _, h.calls_eq, h.coherent⟩

/-- Lengths of scripts of this size are words, and so is what is computed from them. -/
theorem isWord_candidateLength {p : Prober} (hbody : p.body.length < 2 ^ 62) {offset : Int}
    (hlow : -1 ≤ offset) (hhigh : offset ≤ 9997) : isWord (p.candidateLength offset) = true := by
  apply decide_eq_true
  rw [candidateLength_eq, shortest]
  omega

theorem Coherent.isWord {p : Prober} {accepted : Bool} {r : Report} (h : p.Coherent accepted r)
    (hbody : p.body.length < 2 ^ 62) :
    isWord r.maxLength = true ∧ ∀ room, r.headroom = some room → isWord room = true := by
  cases hr : r.headroom with
  | none =>
    have hrejected : accepted = false := by
      rw [← h.headroom, hr, Option.isSome_none]
    rw [h.unusable hrejected]
    exact ⟨rfl, fun room hroom => nomatch hroom⟩
  | some room =>
    obtain ⟨heq, hlow, hhigh⟩ := h.room room hr
    refine ⟨decide_eq_true (by omega), ?_⟩
    intro other hother
    obtain rfl := Option.some.inj hother
    exact decide_eq_true (by omega)

/-- A report is coherent: usable, with headroom and with more than one call all mean that the
shortest script was accepted. With a body of fewer than 2 ^ 62 characters every length that is
computed is a word. -/
theorem probe_report_coherent (p : Prober) (host : Host Empty σ) (s : σ) :
    let run := p.probe host s
    let r := run.value
    ∃ first rest, run.calls = first :: rest ∧ first.script = "1;" ++ p.body ∧
      (r.isUsable = true ↔ first.accepted = true) ∧
      (first.accepted = true ↔ r.headroom.isSome = true) ∧
      (r.headroom.isSome = true ↔ 1 < r.calls) ∧
      r.bodyLength = p.body.length ∧
      (r.isUsable = true →
        r.headroom = some (r.maxLength - r.bodyLength) ∧ 1 ≤ r.maxLength - r.bodyLength ∧
          r.maxLength - r.bodyLength ≤ 9998 ∧ 1 ≤ r.maxLength) ∧
      (r.isUsable = false → r.maxLength = -1 ∧ r.calls = 1 ∧ r.headroom = none) ∧
      (p.body.length < 2 ^ 62 →
        isWord r.maxLength = true ∧ (∀ room, r.headroom = some room → isWord room = true) ∧
          ∀ offset, -1 ≤ offset → offset ≤ 9997 → isWord (p.candidateLength offset) = true) := by
  intro run r
  obtain ⟨accepted, rest, hcalls, h⟩ := probe_coherent run.result_eq_ok
  have hheadroom : r.headroom.isSome = true ↔ accepted = true := Bool.eq_iff_iff.mp h.headroom
  refine ⟨_, rest, hcalls, rfl, Bool.eq_iff_iff.mp h.usable, hheadroom.symm,
    hheadroom.trans h.calls.symm, h.body, ?_, ?_, ?_⟩
  · intro husable
    obtain ⟨room, hroom⟩ := Option.isSome_iff_exists.mp
      (hheadroom.mpr (h.usable.symm.trans husable))
    obtain ⟨rfl, hlow, hhigh⟩ := h.room room hroom
    have hpos : 1 ≤ r.maxLength := Int.le_trans hlow (Int.sub_le_self _ (Int.natCast_nonneg _))
    rw [h.body]
    exact ⟨hroom, hlow, hhigh, hpos⟩
  · intro hunusable
    rw [show r = p.unusableReport from h.unusable (h.usable.symm.trans hunusable)]
    exact ⟨rfl, rfl, rfl⟩
  · intro hbody
    obtain ⟨hlength, hroom⟩ := h.isWord hbody
    exact ⟨hlength, hroom, fun offset hlow hhigh => isWord_candidateLength hbody hlow hhigh⟩

/-- The closest a usable run comes to the length of an unusable one: no body, and a host that
accepts nothing after the shortest script. -/
theorem probe_report_coherent_no_body :
    let p : Prober := ⟨""⟩
    let r := (p.probe acceptOnce true).value
    p.body.length < 2 ^ 62 ∧ r.isUsable = true ∧ r.maxLength = 1 ∧ r.headroom = some 1 ∧
      isWord r.maxLength = true := by
  intro p r
  have hbody : p.body.length < 2 ^ 62 := by decide
  have hplayed : (p.probe acceptOnce true).calls =
      ⟨p.minimalScript, true⟩ ::
        ((p.search 1 searchInterval).play acceptOnce false).calls := rfl
  obtain ⟨first, rest, hcalls, _, husable, _, _, hlength, hroom, _, hword⟩ :=
    probe_report_coherent p acceptOnce true
  obtain ⟨hfirst, hrest⟩ := List.cons.inj (hcalls.symm.trans hplayed)
  have hu : r.isUsable = true := husable.mpr (congrArg Call.accepted hfirst)
  have hmax : r.maxLength = 1 := by
    rcases p.probe_cases acceptOnce true with ⟨hrejected, _⟩ | ⟨queries, j, h⟩
    · exact nomatch hrejected.symm.trans hplayed
    · have hqueries := (List.cons.inj (h.calls_eq.symm.trans hplayed)).2
      have hhigh : j.high = 9997 := h.high_eq_iff_all_rejected.mpr fun q hq =>
        acceptOnce_rejects _ (p.call q) (hqueries ▸ List.mem_map_of_mem hq)
      change (p.probe acceptOnce true).value.maxLength = 1
      rw [h.value_eq]
      simp only [report, candidateLength_eq, hhigh]
      decide
  refine ⟨hbody, hu, hmax, ?_, (hword hbody).1⟩
  have hsome := (hroom hu).1
  have hzero : r.bodyLength = 0 := hlength
  rw [show (p.probe acceptOnce true).value = r from rfl, hmax, hzero] at hsome
  exact hsome

end HostProbe.Capacity.Prober
