import HostProbe.Proofs.Dialogue
import HostProbe.Proofs.RunChoices
import HostProbe.Proofs.SettingsLayers

/-!
Flags stand above the settings. Two runs with the same arguments, in worlds that may have any
variables and any rc file, print the same and end with the same status as soon as the flags settle
the host and the format; what a flag leaves open is all that the settings decide.
-/

namespace HostProbe

theorem Command.Spec.load_congr {files others : Files} {path : String}
    (h : others.resolve path = files.resolve path) : load others path = load files path := by
  simp only [load, Files.readText, Files.readOctets, h]

/-- A host program whose runs are answered alike on two machines is the same host on both. -/
theorem Command.Spec.host_agrees {spec : Spec} {machine others : Nat → Machine}
    (h : ∀ k code, (spec.attempt (others k) code).answer = (spec.attempt (machine k) code).answer) :
    (spec.host others).Agrees (spec.host machine) := by
  intro k code
  simp only [host, h k code]
  cases (spec.attempt (machine k) code).answer <;> rfl

theorem Settings.getBool_eq {s : Settings} {key value : String} (h : s.get? key = some value) :
    s.getBool key = (value.toList.map Char.toLower == "true".toList) := by
  rw [getBool, h, Option.any_some, Bool.eq_iff_iff, beq_iff_eq, beq_iff_eq, ← String.toList_inj,
    Text.asciiLower, String.toList_map]

namespace CommandLine

open Capacity (Prober)

variable {w w' : World} {a : Arguments} {s s' : Settings}

/-- The files that the arguments name and that a run reads: the script and the spec of its host. -/
inductive Names (a : Arguments) : String → Prop where
  | script {path} : a.runtime = false → a.script = some path → path ≠ "-" → Names a path
  | hostSpec {path} : a.runtime = false → a.host = some .command → a.hostSpec = some path →
      Names a path

/-- Two worlds that differ in the settings at most, as far as these arguments reach: the same
standard input, the same contents of the files that are named, and host programs that answer
alike. -/
structure Alike (a : Arguments) (w w' : World) : Prop where
  input : w'.input = w.input
  colours : w'.colours = w.colours
  named : ∀ path, Names a path → w'.files.resolve path = w.files.resolve path
  hosts : ∀ path spec, Command.Spec.load w.files path = .ok spec → ∀ k code,
    (spec.attempt (w'.machine k) code).answer = (spec.attempt (w.machine k) code).answer

/-- What is seen of two runs from outside is the same. -/
def SameSeen (exit exit' : Exit) : Prop :=
  exit'.stdout = exit.stdout ∧ exit'.status = exit.status

theorem Alike.chooseProber (h : Alike a w w') (hcapacity : a.runtime = false) :
    chooseProber w' a = chooseProber w a := by
  cases hscript : a.script with
  | none => simp only [CommandLine.chooseProber, hscript, h.input]
  | some path =>
    by_cases hpath : path = "-"
    · simp only [CommandLine.chooseProber, hscript, ScriptSource.read, if_pos hpath, h.input]
    · have hfile := h.named path (.script hcapacity hscript hpath)
      simp only [CommandLine.chooseProber, hscript, read_path _ _ hpath, ScriptSource.ofPath, hfile]

/-- Once a flag names the kind of host, only the limit or the spec of that kind is looked up. -/
theorem chooseHost_congr {kind : HostKind} (hkind : a.host = some kind)
    (hlimit : kind = .limit → (a.limit <|> s'.hostLimit?) = (a.limit <|> s.hostLimit?))
    (hspec : kind = .command →
      (a.hostSpec <|> s'.hostSpecPath?) = (a.hostSpec <|> s.hostSpecPath?))
    (hfile : kind = .command → ∀ path, (a.hostSpec <|> s.hostSpecPath?) = some path →
      w'.files.resolve path = w.files.resolve path) :
    chooseHost w' a s' = chooseHost w a s := by
  cases kind with
  | limit => simp only [chooseHost, chooseKind, hkind, hlimit rfl]
  | command =>
    simp only [chooseHost, chooseKind, hkind, hspec rfl]
    cases hpath : (a.hostSpec <|> s.hostSpecPath?) with
    | none => rfl
    | some path => simp only [Command.Spec.load_congr (hfile rfl path hpath)]

theorem Alike.probe_result (h : Alike a w w') (p : Prober) {selected : Selected}
    (hselects : Selects w a s selected) :
    (p.probe (selected.host w'.machine) 0).result =
      (p.probe (selected.host w.machine) 0).result := by
  cases hselects with
  | limit _ _ => rfl
  | @command path spec _ _ hload =>
    have hagrees := Command.Spec.host_agrees (h.hosts path spec hload)
    exact (Dialogue.play_agrees hagrees p.dialogue 0).2

theorem format_congr (h : s'.markdown = s.markdown ∨ a.json = true ∨ a.markdown = true ∨
    a.noMarkdown = true) : format a s' = format a s := by
  rcases h with h | h | h | h <;> simp [format, h]

theorem Alike.probeHost (h : Alike a w w') (hformat : format a s' = format a s) (p : Prober)
    {selected : Selected} (hselects : Selects w a s selected) :
    SameSeen (probeHost w a s p selected) (probeHost w' a s' p selected) := by
  simp only [CommandLine.probeHost, h.probe_result p hselects]
  cases (p.probe (selected.host w.machine) 0).result with
  | error e => exact ⟨rfl, rfl⟩
  | ok r => exact ⟨by simp only [printCapacity, hformat, h.colours], rfl⟩

theorem Alike.runCapacity (h : Alike a w w') (hcapacity : a.runtime = false)
    (hformat : format a s' = format a s) (hhost : chooseHost w' a s' = chooseHost w a s) :
    SameSeen (runCapacity w a s) (runCapacity w' a s') := by
  have hprober := h.chooseProber hcapacity
  cases hp : CommandLine.chooseProber w a with
  | error e =>
    simp only [CommandLine.runCapacity, hprober, hp]
    exact ⟨rfl, rfl⟩
  | ok p =>
    cases hs : chooseHost w a s with
    | error e =>
      simp only [CommandLine.runCapacity, hprober, hp, hhost, hs]
      exact ⟨rfl, rfl⟩
    | ok selected =>
      simp only [CommandLine.runCapacity, hprober, hp, hhost, hs]
      exact h.probeHost hformat p (selects_of_chosen hs)

theorem Alike.runScenarios (h : Alike a w w') (hformat : format a s' = format a s) :
    SameSeen (runScenarios w a s) (runScenarios w' a s') :=
  ⟨by simp only [CommandLine.runScenarios, printRows, hformat, h.colours], rfl⟩

/-- The settings are seen in a run through the format and the host only. -/
theorem Alike.runWith (h : Alike a w w') (hformat : format a s' = format a s)
    (hhost : a.runtime = false → chooseHost w' a s' = chooseHost w a s) :
    SameSeen (runWith w a s) (runWith w' a s') := by
  cases hruntime : a.runtime with
  | true =>
    by_cases hscript : a.script = none
    · rw [runWith_runtime w s hruntime hscript, runWith_runtime w' s' hruntime hscript]
      exact h.runScenarios hformat
    · rw [runWith_runtime_script w s hruntime hscript,
        runWith_runtime_script w' s' hruntime hscript]
      exact ⟨rfl, rfl⟩
  | false =>
    rw [runWith_capacity w s hruntime, runWith_capacity w' s' hruntime]
    exact h.runCapacity hruntime hformat (hhost hruntime)

end CommandLine

end HostProbe
