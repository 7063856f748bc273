import HostProbe.CommandLine.Run
import HostProbe.Proofs.Utf8

/-!
What a run settles before it asks a host: the mode, the body to probe with, the host, and the
format of the report. For the body and for the host there is a relation that says when the choice
is made and one that says when it cannot be made; one of the two always holds.
-/

namespace HostProbe

/-- Octets that are not the encoding of any text. -/
def Undecodable (octets : List UInt8) : Prop := ∀ text, octets ≠ Text.Utf8.encode text

theorem Files.decodeText_encode (text : String) :
    Files.decodeText (Text.Utf8.encode text) = .ok text := by
  rw [Files.decodeText, Text.Utf8.decode_eq_some_iff.mpr rfl, Option.elim_some]

theorem Undecodable.decodeText {octets : List UInt8} (h : Undecodable octets) :
    Files.decodeText octets = .error .invalidText := by
  cases hdecode : Text.Utf8.decode octets with
  | none => rw [Files.decodeText, hdecode, Option.elim_none]
  | some text => exact absurd (Text.Utf8.decode_eq_some_iff.mp hdecode) (h text)

theorem encoded_or_undecodable (octets : List UInt8) :
    (∃ text, octets = Text.Utf8.encode text) ∨ Undecodable octets := by
  by_cases h : ∃ text, octets = Text.Utf8.encode text
  · exact Or.inl h
  · exact Or.inr fun text he => h ⟨text, he⟩

namespace CommandLine

open Capacity (Prober)
open ScriptSource (trimTrailingNewlines)

/-- The body that a run probes with. Piped input that is blank counts as no script, a blank script
that was asked for does not. -/
inductive Probes (w : World) (a : Arguments) : Prober → Prop where
  | file {path text} : a.script = some path → path ≠ "-" →
      w.files.resolve path = .ok (.file (Text.Utf8.encode text)) →
      Probes w a ⟨trimTrailingNewlines text⟩
  | dash {text} : a.script = some "-" → w.input.getD [] = Text.Utf8.encode text →
      Probes w a ⟨trimTrailingNewlines text⟩
  | piped {text} : a.script = none → w.input = some (Text.Utf8.encode text) →
      Text.allBlank (trimTrailingNewlines text) = false → Probes w a ⟨trimTrailingNewlines text⟩
  | blank {text} : a.script = none → w.input = some (Text.Utf8.encode text) →
      Text.allBlank (trimTrailingNewlines text) = true → Probes w a .standard
  | terminal : a.script = none → w.input = none → Probes w a .standard

/-- Why the script cannot be read. -/
inductive ScriptFault (w : World) (a : Arguments) : ScriptSource.Error → Prop where
  | missing {path e} : a.script = some path → path ≠ "-" → w.files.resolve path = .error e →
      ScriptFault w a (.missing path)
  | notRegular {path content} : a.script = some path → path ≠ "-" →
      w.files.resolve path = .ok content → (∀ octets, content ≠ .file octets) →
      ScriptFault w a (.notRegular path)
  | undecodable {path octets} : a.script = some path → path ≠ "-" →
      w.files.resolve path = .ok (.file octets) → Undecodable octets →
      ScriptFault w a (.unreadable path .invalidText)
  | undecodableInput : a.script = some "-" ∨ a.script = none ∧ w.input ≠ none →
      Undecodable (w.input.getD []) → ScriptFault w a (.unreadableInput .invalidText)

variable {w : World} {a : Arguments} {s : Settings}

theorem ofInput_encode (text : String) :
    ScriptSource.ofInput (Text.Utf8.encode text) = .ok (trimTrailingNewlines text) := by
  simp only [ScriptSource.ofInput, Files.decodeText_encode]

theorem ofInput_undecodable {octets : List UInt8} (h : Undecodable octets) :
    ScriptSource.ofInput octets = .error (.unreadableInput .invalidText) := by
  simp only [ScriptSource.ofInput, h.decodeText]

theorem read_path {path : String} (files : Files) (input : List UInt8) (h : path ≠ "-") :
    ScriptSource.read files input path = ScriptSource.ofPath files path :=
  if_neg h

theorem Probes.chosen {p : Prober} (h : Probes w a p) : chooseProber w a = .ok p := by
  cases h with
  | file hscript hpath hfile =>
    simp only [chooseProber, hscript, read_path _ _ hpath, ScriptSource.ofPath, hfile,
      Files.decodeText_encode]
  | dash hscript hinput =>
    simp only [chooseProber, hscript, ScriptSource.read, if_true, hinput, ofInput_encode]
  | piped hscript hinput hblank =>
    simp only [chooseProber, hscript, hinput, ofInput_encode, hblank, Bool.false_eq_true, if_false]
  | blank hscript hinput hblank =>
    simp only [chooseProber, hscript, hinput, ofInput_encode, hblank, if_true]
  | terminal hscript hinput => simp only [chooseProber, hscript, hinput]

theorem ScriptFault.chosen {e : ScriptSource.Error} (h : ScriptFault w a e) :
    chooseProber w a = .error (.script e) := by
  cases h with
  | missing hscript hpath hfile =>
    simp only [chooseProber, hscript, read_path _ _ hpath, ScriptSource.ofPath, hfile]
  | @notRegular path content hscript hpath hfile hcontent =>
    cases content with
    | file octets => exact absurd rfl (hcontent octets)
    | directory =>
      simp only [chooseProber, hscript, read_path _ _ hpath, ScriptSource.ofPath, hfile]
    | device octets =>
      simp only [chooseProber, hscript, read_path _ _ hpath, ScriptSource.ofPath, hfile]
  | undecodable hscript hpath hfile hbad =>
    simp only [chooseProber, hscript, read_path _ _ hpath, ScriptSource.ofPath, hfile,
      hbad.decodeText]
  | undecodableInput hread hbad =>
    rcases hread with hscript | ⟨hscript, hinput⟩
    · simp only [chooseProber, hscript, ScriptSource.read, if_true, ofInput_undecodable hbad]
    · obtain ⟨octets, hoctets⟩ := Option.ne_none_iff_exists'.mp hinput
      rw [hoctets, Option.getD_some] at hbad
      simp only [chooseProber, hscript, hoctets, ofInput_undecodable hbad]

/-- A body is found or it is clear why not. -/
theorem probes_or_fault (w : World) (a : Arguments) :
    (∃ p, Probes w a p) ∨ ∃ e, ScriptFault w a e := by
  cases hscript : a.script with
  | none =>
    cases hinput : w.input with
    | none => exact Or.inl ⟨_, .terminal hscript hinput⟩
    | some octets =>
      rcases encoded_or_undecodable octets with ⟨text, rfl⟩ | hbad
      · cases hblank : Text.allBlank (trimTrailingNewlines text) with
        | true => exact Or.inl ⟨_, .blank hscript hinput hblank⟩
        | false => exact Or.inl ⟨_, .piped hscript hinput hblank⟩
      · refine Or.inr ⟨_, .undecodableInput (Or.inr ⟨hscript, ?_⟩) ?_⟩
        · rw [hinput]
          exact Option.some_ne_none octets
        · rwa [hinput, Option.getD_some]
  | some path =>
    by_cases hpath : path = "-"
    · subst hpath
      rcases encoded_or_undecodable (w.input.getD []) with ⟨text, htext⟩ | hbad
      · exact Or.inl ⟨_, .dash hscript htext⟩
      · exact Or.inr ⟨_, .undecodableInput (Or.inl hscript) hbad⟩
    · cases hfile : w.files.resolve path with
      | error e => exact Or.inr ⟨_, .missing hscript hpath hfile⟩
      | ok content =>
        cases content with
        | file octets =>
          rcases encoded_or_undecodable octets with ⟨text, rfl⟩ | hbad
          · exact Or.inl ⟨_, .file hscript hpath hfile⟩
          · exact Or.inr ⟨_, .undecodable hscript hpath hfile hbad⟩
        | directory => exact Or.inr ⟨_, .notRegular hscript hpath hfile (fun _ h => nomatch h)⟩
        | device octets => exact Or.inr ⟨_, .notRegular hscript hpath hfile (fun _ h => nomatch h)⟩

/-- The name of a kind of host in the settings. -/
def HostKind.name : HostKind → String
  | .limit => "limit"
  | .command => "command"

theorem ofName_eq_some_iff {name : String} {kind : HostKind} :
    HostKind.ofName name = some kind ↔ name = kind.name := by
  constructor
  · intro h
    unfold HostKind.ofName at h
    split at h
    · cases h
      rfl
    · cases h
      rfl
    · cases h
  · rintro rfl
    cases kind <;> rfl

/-- The kind of host that is wanted: by flag, else by the settings in any ASCII case. -/
inductive WantsKind (a : Arguments) (s : Settings) : HostKind → Prop where
  | flag {kind} : a.host = some kind → WantsKind a s kind
  | configured {kind} : a.host = none → Text.asciiLower s.hostKind = kind.name →
      WantsKind a s kind

/-- The host that a run asks. -/
inductive Selects (w : World) (a : Arguments) (s : Settings) : Selected → Prop where
  | limit {n} : WantsKind a s .limit → (a.limit <|> s.hostLimit?) = some n →
      Selects w a s (.limit n)
  | command {path h} : WantsKind a s .command → (a.hostSpec <|> s.hostSpecPath?) = some path →
      Command.Spec.load w.files path = .ok h → Selects w a s (.command h)

/-- Why there is no host to ask. -/
inductive HostFault (w : World) (a : Arguments) (s : Settings) : Failure → Prop where
  | unknown : a.host = none → (∀ kind : HostKind, Text.asciiLower s.hostKind ≠ kind.name) →
      HostFault w a s (.unknownHost (Text.asciiLower s.hostKind))
  | noLimit : WantsKind a s .limit → a.limit = none → s.hostLimit? = none →
      HostFault w a s .limitRequired
  | noSpec : WantsKind a s .command → a.hostSpec = none → s.hostSpecPath? = none →
      HostFault w a s .specRequired
  | badSpec {path e} : WantsKind a s .command → (a.hostSpec <|> s.hostSpecPath?) = some path →
      Command.Spec.load w.files path = .error e → HostFault w a s (.spec path e)

theorem WantsKind.chosen {kind : HostKind} (h : WantsKind a s kind) :
    chooseKind a s = .ok kind := by
  cases h with
  | flag hhost => simp only [chooseKind, hhost]
  | configured hhost hname => simp only [chooseKind, hhost, ofName_eq_some_iff.mpr hname]

theorem Selects.chosen {selected : Selected} (h : Selects w a s selected) :
    chooseHost w a s = .ok selected := by
  cases h with
  | limit hkind hn => simp only [chooseHost, hkind.chosen, hn]
  | command hkind hpath hload => simp only [chooseHost, hkind.chosen, hpath, hload]

theorem HostFault.chosen {e : Failure} (h : HostFault w a s e) :
    chooseHost w a s = .error e := by
  cases h with
  | unknown hhost hname =>
    have hunnamed : HostKind.ofName (Text.asciiLower s.hostKind) = none := by
      rw [Option.eq_none_iff_forall_ne_some]
      intro kind hkind
      exact hname kind (ofName_eq_some_iff.mp hkind)
    simp only [chooseHost, chooseKind, hhost, hunnamed]
  | noLimit hkind hflag hsetting => simp [chooseHost, hkind.chosen, hflag, hsetting]
  | noSpec hkind hflag hsetting => simp [chooseHost, hkind.chosen, hflag, hsetting]
  | badSpec hkind hpath hload => simp only [chooseHost, hkind.chosen, hpath, hload]

theorem wantsKind_or_unknown (a : Arguments) (s : Settings) :
    (∃ kind, WantsKind a s kind) ∨
      a.host = none ∧ ∀ kind : HostKind, Text.asciiLower s.hostKind ≠ kind.name := by
  cases hhost : a.host with
  | some kind => exact Or.inl ⟨kind, .flag hhost⟩
  | none =>
    by_cases hname : ∃ kind : HostKind, Text.asciiLower s.hostKind = kind.name
    · obtain ⟨kind, hkind⟩ := hname
      exact Or.inl ⟨kind, .configured hhost hkind⟩
    · exact Or.inr ⟨rfl, fun kind hkind => hname ⟨kind, hkind⟩⟩

/-- A host is selected or it is clear why not. -/
theorem selects_or_fault (w : World) (a : Arguments) (s : Settings) :
    (∃ selected, Selects w a s selected) ∨ ∃ e, HostFault w a s e := by
  rcases wantsKind_or_unknown a s with ⟨kind, hkind⟩ | ⟨hhost, hname⟩
  · cases kind with
    | limit =>
      cases hn : (a.limit <|> s.hostLimit?) with
      | some n => exact Or.inl ⟨_, .limit hkind hn⟩
      | none =>
        obtain ⟨hflag, hsetting⟩ : a.limit = none ∧ s.hostLimit? = none := by simpa using hn
        exact Or.inr ⟨_, .noLimit hkind hflag hsetting⟩
    | command =>
      cases hpath : (a.hostSpec <|> s.hostSpecPath?) with
      | none =>
        obtain ⟨hflag, hsetting⟩ : a.hostSpec = none ∧ s.hostSpecPath? = none := by
          simpa using hpath
        exact Or.inr ⟨_, .noSpec hkind hflag hsetting⟩
      | some path =>
        cases hload : Command.Spec.load w.files path with
        | ok h => exact Or.inl ⟨_, .command hkind hpath hload⟩
        | error e => exact Or.inr ⟨_, .badSpec hkind hpath hload⟩
  · exact Or.inr ⟨_, .unknown hhost hname⟩

theorem selects_of_chosen {selected : Selected} (h : chooseHost w a s = .ok selected) :
    Selects w a s selected := by
  rcases selects_or_fault w a s with ⟨other, hother⟩ | ⟨e, he⟩
  · obtain rfl := Except.ok.inj (hother.chosen.symm.trans h)
    exact hother
  · exact nomatch he.chosen.symm.trans h

/-- The format that flags and settings ask for: JSON before everything, then markdown unless it is
switched off. -/
inductive Asks (a : Arguments) (s : Settings) : Format → Prop where
  | json : a.json = true → Asks a s .json
  | markdown : a.json = false → a.noMarkdown = false → a.markdown = true ∨ s.markdown = true →
      Asks a s .markdown
  | text : a.json = false → a.noMarkdown = true ∨ a.markdown = false ∧ s.markdown = false →
      Asks a s .text

theorem format_eq_iff {f : Format} : format a s = f ↔ Asks a s f := by
  constructor
  · rintro rfl
    unfold format
    split
    · next hjson => exact .json hjson
    · next hjson =>
      have hjson : a.json = false := by simpa using hjson
      split
      · next hno => exact .text hjson (Or.inl hno)
      · next hno =>
        split
        · next hmd => exact .markdown hjson (by simpa using hno) (by simpa using hmd)
        · next hmd => exact .text hjson (Or.inr (by simpa using hmd))
  · intro h
    cases h with
    | json hjson => simp [format, hjson]
    | markdown hjson hno hmd => rcases hmd with hmd | hmd <;> simp [format, hjson, hno, hmd]
    | text hjson hplain =>
      rcases hplain with hno | ⟨hmd, hsetting⟩
      · simp [format, hjson, hno]
      · simp [format, hjson, hmd, hsetting]

theorem run_eq_runWith {args : List String} (h : Request.ofArgs args = .run a) (w : World) :
    run w args = runWith w a (Settings.load w.files w.environment) := by
  simp only [run, h]

theorem runWith_capacity (w : World) (s : Settings) (h : a.runtime = false) :
    runWith w a s =
      { runCapacity w a s with
        log := note ("config: " ++ s.path) :: (runCapacity w a s).log } := by
  simp only [runWith, h, Bool.false_eq_true, if_false]

theorem runWith_runtime (w : World) (s : Settings) (h : a.runtime = true)
    (hscript : a.script = none) :
    runWith w a s = { runScenarios w a s with log := [note ("config: " ++ s.path)] } := by
  simp only [runWith, h, hscript, Option.isSome_none, Bool.false_eq_true, if_true, if_false,
    runScenarios]

theorem runWith_runtime_script (w : World) (s : Settings) (h : a.runtime = true)
    (hscript : a.script ≠ none) :
    runWith w a s =
      { failedExit a s .scriptWithRuntime with log := [note ("config: " ++ s.path)] } := by
  have hsome : a.script.isSome = true := Option.isSome_iff_ne_none.mpr hscript
  simp only [runWith, h, hsome, if_true, failedExit]

end CommandLine

end HostProbe
