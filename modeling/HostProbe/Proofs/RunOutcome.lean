import HostProbe.Proofs.CommandAnswer
import HostProbe.Proofs.ReportCoherence
import HostProbe.Proofs.RunChoices
import Mathlib.Logic.Basic

/-!
How a run of the program ends. A capacity run either fails before anything is printed or asked,
or it prints one report; its status then tells whether the host accepted the shortest script. A
runtime run reads no script and asks no host.
-/

namespace HostProbe

namespace Render

/-- JSON opens with a brace. -/
theorem head_capacityJson (r : Capacity.Report) : (capacityJson r).toList.head? = some '\x7b' := by
  rw [capacityJson, Json.render, String.toList_ofList]
  rfl

theorem head_capacityText (colours : Bool) (r : Capacity.Report) :
    (capacityText colours r).toList.head? ≠ some '\x7b' := by
  rw [capacityText, capacityLines]
  split
  · simp [unlines, String.toList_append]
  · cases colours <;> simp [unlines, paint, Colour.start, String.toList_append]

theorem capacityJson_ne_capacityText (colours : Bool) (r : Capacity.Report) :
    capacityJson r ++ "\n" ≠ capacityText colours r := by
  intro h
  apply head_capacityText colours r
  rw [← h, String.toList_append, List.head?_append, head_capacityJson, Option.some_or]

end Render

namespace CommandLine

open Capacity (Prober Report)

variable {w : World} {a : Arguments} {s : Settings}

theorem printCapacity_injective (w : World) (r : Report) {f g : Format}
    (h : printCapacity w r f = printCapacity w r g) : f = g := by
  have hdiffer := Render.capacityJson_ne_capacityText w.colours r
  cases f <;> cases g <;> simp_all [printCapacity]

/-- A run that failed: nothing is printed and no host was asked. -/
structure Refused (exit : Exit) (e : Failure) : Prop where
  ending : exit.ending = .failed e
  stdout : exit.stdout = .nothing
  status : exit.status = 1
  calls : exit.calls = []

/-- A run that printed the report of a probe, in the format that was asked for and in no other. -/
structure Reported (w : World) (a : Arguments) (s : Settings) (exit : Exit) (p : Prober)
    (selected : Selected) (r : Report) : Prop where
  ending : exit.ending = .done
  result : (p.probe (selected.host w.machine) 0).result = .ok r
  calls : exit.calls = (p.probe (selected.host w.machine) 0).calls
  stdout : ∀ f, exit.stdout = printCapacity w r f ↔ Asks a s f
  status : ∃ accepted, (selected.host w.machine).Answers 0 ("1;" ++ p.body) accepted ∧
    exit.status = if accepted then 0 else 1

/-- What keeps a capacity run from asking a host. The script is read first. -/
def Hindered (w : World) (a : Arguments) (s : Settings) (e : Failure) : Prop :=
  (∃ cause, e = .script cause ∧ ScriptFault w a cause) ∨
    (∃ p, Probes w a p) ∧ HostFault w a s e

/-- What hinders a run shows before the machine does anything. -/
theorem Hindered.runCapacity {e : Failure} (h : Hindered w a s e)
    (machine : Nat → Command.Machine) :
    CommandLine.runCapacity { w with machine := machine } a s = failedExit a s e := by
  rcases h with ⟨cause, rfl, hscript⟩ | ⟨⟨p, hp⟩, hhost⟩
  · have hfault : chooseProber { w with machine := machine } a = .error (.script cause) :=
      hscript.chosen
    simp only [CommandLine.runCapacity, hfault]
  · have hprober : chooseProber { w with machine := machine } a = .ok p := hp.chosen
    have hfault : chooseHost { w with machine := machine } a s = .error e := hhost.chosen
    simp only [CommandLine.runCapacity, hprober, hfault]

theorem runCapacity_cases (w : World) (a : Arguments) (s : Settings) :
    (∃ e, Hindered w a s e) ∨
      ∃ p selected, Probes w a p ∧ Selects w a s selected ∧
        runCapacity w a s = probeHost w a s p selected := by
  rcases probes_or_fault w a with ⟨p, hp⟩ | ⟨e, he⟩
  · rcases selects_or_fault w a s with ⟨selected, hs⟩ | ⟨e, he⟩
    · exact Or.inr ⟨p, selected, hp, hs, by simp only [runCapacity, hp.chosen, hs.chosen]⟩
    · exact Or.inl ⟨e, Or.inr ⟨⟨p, hp⟩, he⟩⟩
  · exact Or.inl ⟨_, Or.inl ⟨e, rfl, he⟩⟩

theorem refused_failedExit (a : Arguments) (s : Settings) (e : Failure) :
    Refused (failedExit a s e) e := ⟨rfl, rfl, rfl, rfl⟩

/-- A host that always answers lets the probe end with a report. -/
theorem exists_report {p : Prober} {host : Host Command.Fault Nat}
    (h : ∀ k code, ∃ accepted, host.Answers k code accepted) :
    ∃ r, (p.probe host 0).result = .ok r := by
  rw [Command.exists_ok_iff]
  intro e he
  obtain ⟨script, -, herror⟩ := (Dialogue.play_eq_error_iff host p.dialogue 0 e).mp he
  obtain ⟨accepted, reply, hok, -⟩ := h (p.probe host 0).state script
  exact nomatch herror.symm.trans hok

theorem reported_probeHost {p : Prober} {selected : Selected} {r : Report}
    (hresult : (p.probe (selected.host w.machine) 0).result = .ok r) :
    Reported w a s (probeHost w a s p selected) p selected r := by
  have hexit : probeHost w a s p selected =
      { status := if r.isUsable then 0 else 1
        stdout := printCapacity w r (format a s)
        filter := logFilter a s
        log := selected.record :: (p.probe (selected.host w.machine) 0).log
        calls := (p.probe (selected.host w.machine) 0).calls
        ending := .done } := by
    simp only [probeHost, hresult]
  rw [hexit]
  refine ⟨rfl, hresult, rfl, ?_, ?_⟩
  · intro f
    rw [← format_eq_iff]
    exact ⟨fun h => printCapacity_injective w r h, fun h => congrArg (printCapacity w r) h⟩
  · obtain ⟨accepted, rest, hcalls, hcoherent⟩ := Capacity.Prober.probe_coherent hresult
    refine ⟨accepted, Dialogue.answers_of_play_ask hcalls, ?_⟩
    -- usability is read off the length, which is minus one only for a rejected first script
    rw [hcoherent.usable]

theorem Selected.answers_of {selected : Selected} {machine : Nat → Command.Machine}
    (h : ∀ spec, selected = .command spec →
      ∀ k code, ∃ accepted, (spec.host machine).Answers k code accepted) :
    ∀ k code, ∃ accepted, (selected.host machine).Answers k code accepted := by
  intro k code
  cases selected with
  | limit n => exact ⟨_, Host.limit_answersBy n k code⟩
  | command spec => exact h spec rfl k code

theorem Refused.not_reported {exit : Exit} {e : Failure} (h : Refused exit e) {p : Prober}
    {selected : Selected} {r : Report} : ¬ Reported w a s exit p selected r :=
  fun hr => nomatch h.ending.symm.trans hr.ending

/-- The log of a run is all that `runWith` adds to it. -/
theorem Refused.noted {exit : Exit} {e : Failure} (h : Refused exit e) (log : List Log.Record) :
    Refused { exit with log := log } e := ⟨h.ending, h.stdout, h.status, h.calls⟩

theorem Reported.noted {exit : Exit} {p : Prober} {selected : Selected} {r : Report}
    (h : Reported w a s exit p selected r) (log : List Log.Record) :
    Reported w a s { exit with log := log } p selected r :=
  ⟨h.ending, h.result, h.calls, h.stdout, h.status⟩

theorem not_hindered {p : Prober} {selected : Selected} (hp : Probes w a p)
    (hs : Selects w a s selected) (e : Failure) : ¬ Hindered w a s e := by
  rintro (⟨cause, -, hscript⟩ | ⟨-, hhost⟩)
  · exact nomatch hp.chosen.symm.trans hscript.chosen
  · exact nomatch hs.chosen.symm.trans hhost.chosen

theorem Hindered.refused {e : Failure} (h : Hindered w a s e) (hcapacity : a.runtime = false) :
    Refused (runWith w a s) e := by
  have hfailed : CommandLine.runCapacity w a s = failedExit a s e := h.runCapacity w.machine
  rw [runWith_capacity w s hcapacity, hfailed]
  exact (refused_failedExit a s e).noted _

theorem Hindered.unasked {e : Failure} (h : Hindered w a s e) (hcapacity : a.runtime = false)
    (machine : Nat → Command.Machine) :
    runWith { w with machine := machine } a s = runWith w a s := by
  have hfailed : CommandLine.runCapacity w a s = failedExit a s e := h.runCapacity w.machine
  rw [runWith_capacity _ s hcapacity, runWith_capacity w s hcapacity, h.runCapacity machine,
    hfailed]

/-- A capacity run that nothing hinders prints a report. -/
theorem capacity_outcome (hcapacity : a.runtime = false)
    (hanswers : ∀ spec, Selects w a s (.command spec) →
      ∀ k code, ∃ accepted, (spec.host w.machine).Answers k code accepted) :
    (∃ e, Hindered w a s e) ∨ ∃ p selected r, Probes w a p ∧ Selects w a s selected ∧
      Reported w a s (runWith w a s) p selected r := by
  rcases runCapacity_cases w a s with he | ⟨p, selected, hp, hs, hrun⟩
  · exact Or.inl he
  · have hhost : ∀ k code, ∃ accepted, (selected.host w.machine).Answers k code accepted :=
      Selected.answers_of fun spec hspec => hanswers spec (hspec ▸ hs)
    obtain ⟨r, hr⟩ := exists_report (p := p) hhost
    rw [runWith_capacity w s hcapacity, hrun]
    exact Or.inr ⟨p, selected, r, hp, hs, (reported_probeHost hr).noted _⟩

/-- A run is refused for the reasons that hinder it and for no other. -/
theorem refused_iff_hindered (hcapacity : a.runtime = false)
    (hanswers : ∀ spec, Selects w a s (.command spec) →
      ∀ k code, ∃ accepted, (spec.host w.machine).Answers k code accepted) {e : Failure} :
    Refused (runWith w a s) e ↔ Hindered w a s e := by
  constructor
  · intro h
    rcases capacity_outcome hcapacity hanswers with ⟨e', he'⟩ | ⟨p, selected, r, -, -, hr⟩
    · have hsame := h.ending.symm.trans (he'.refused hcapacity).ending
      obtain rfl := Ending.failed.inj hsame
      exact he'
    · exact absurd hr h.not_reported
  · intro h
    exact h.refused hcapacity

end CommandLine

end HostProbe
