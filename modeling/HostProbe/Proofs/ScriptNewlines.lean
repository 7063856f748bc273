import HostProbe.Proofs.RunOutcome
import HostProbe.Proofs.Trimming

/-!
Line ends at the end of a script are never measured. Two capacity runs whose scripts differ only
there ask their host the same and print the same report, wherever the script comes from. The body
is the longest beginning of the script that does not end in a line end; only piped input that is
blank stands for the default body.
-/

namespace HostProbe

namespace ScriptSource

def Unended (l : List Char) : Prop := ∀ c, l.getLast? = some c → c ≠ '\n' ∧ c ≠ '\r'

/-- The longest beginning of a text that does not end in a line end. -/
structure IsBody (text body : String) : Prop where
  isPrefix : body.toList <+: text.toList
  unended : Unended body.toList
  longest : ∀ l, l <+: text.toList → Unended l → l.length ≤ body.toList.length

theorem isLineEnd_iff {c : Char} : isLineEnd c = true ↔ c = '\n' ∨ c = '\r' := by
  simp [isLineEnd]

theorem isBlank_of_isLineEnd {c : Char} (h : isLineEnd c = true) : Text.isBlank c = true := by
  rcases isLineEnd_iff.mp h with rfl | rfl <;> decide

theorem toList_trimTrailingNewlines (text : String) :
    (trimTrailingNewlines text).toList = Text.dropTrailing isLineEnd text.toList :=
  String.toList_ofList

theorem unended_dropTrailing (l : List Char) : Unended (Text.dropTrailing isLineEnd l) := by
  intro c hc
  have hstop := List.head?_dropWhile_not isLineEnd l.reverse
  rw [Text.dropTrailing, List.getLast?_reverse] at hc
  rw [hc] at hstop
  simpa [isLineEnd] using hstop

/-- A beginning that reaches into the dropped end is itself ended. -/
theorem length_le_of_unended {l text : List Char} (hl : l <+: text) (hunended : Unended l) :
    l.length ≤ (Text.dropTrailing isLineEnd text).length := by
  have hbody : Text.dropTrailing isLineEnd text <+: text := List.rdropWhile_prefix isLineEnd text
  obtain ⟨ends, htext, hends⟩ := Text.exists_eq_dropTrailing_append isLineEnd text
  generalize Text.dropTrailing isLineEnd text = body at hbody htext
  apply Nat.le_of_not_lt
  intro hlong
  obtain ⟨more, rfl⟩ := List.prefix_of_prefix_length_le hbody hl hlong.le
  have hmore : more ≠ [] := by
    rintro rfl
    simp at hlong
  have hlast : (body ++ more).getLast? = some (more.getLast hmore) := by
    rw [List.getLast?_append_of_ne_nil _ hmore, List.getLast?_eq_some_getLast hmore]
  have hmem : more.getLast hmore ∈ ends := by
    rw [htext, List.prefix_append_right_inj] at hl
    exact hl.mem (List.getLast_mem hmore)
  obtain ⟨hfeed, hreturn⟩ := hunended _ hlast
  rcases isLineEnd_iff.mp (hends _ hmem) with h | h
  · exact hfeed h
  · exact hreturn h

theorem isBody_trimTrailingNewlines (text : String) : IsBody text (trimTrailingNewlines text) := by
  have hbody := toList_trimTrailingNewlines text
  refine ⟨?_, ?_, ?_⟩
  · rw [hbody]
    exact List.rdropWhile_prefix isLineEnd text.toList
  · rw [hbody]
    exact unended_dropTrailing text.toList
  · intro l hl hunended
    rw [hbody]
    exact length_le_of_unended hl hunended

theorem trimTrailingNewlines_append {ends : String} (text : String)
    (h : ∀ c ∈ ends.toList, c = '\n' ∨ c = '\r') :
    trimTrailingNewlines (text ++ ends) = trimTrailingNewlines text := by
  rw [trimTrailingNewlines, String.toList_append, Text.dropTrailing_append_of_all,
    trimTrailingNewlines]
  intro c hc
  exact isLineEnd_iff.mpr (h c hc)

/-- Line ends are blank, so that it makes no difference whether they are looked at. -/
theorem allBlank_trimTrailingNewlines (text : String) :
    Text.allBlank (trimTrailingNewlines text) = Text.allBlank text := by
  obtain ⟨ends, htext, hends⟩ := Text.exists_eq_dropTrailing_append isLineEnd text.toList
  have hblank : ends.all Text.isBlank = true := by
    rw [List.all_eq_true]
    intro c hc
    exact isBlank_of_isLineEnd (hends c hc)
  rw [Text.allBlank, Text.allBlank, toList_trimTrailingNewlines]
  conv => rhs; rw [htext, List.all_append, hblank, Bool.and_true]

end ScriptSource

namespace CommandLine

open Capacity (Prober)
open ScriptSource (IsBody trimTrailingNewlines)

/-- Where a script comes from: the file that is named, standard input asked for by a dash, or
standard input that is piped in unasked. -/
inductive Source where
  | file
  | dash
  | piped
  deriving DecidableEq, Repr

/-- The text that a run finds there. -/
inductive Reads (w : World) (a : Arguments) : Source → String → Prop where
  | file {path text} : a.script = some path → path ≠ "-" →
      w.files.resolve path = .ok (.file (Text.Utf8.encode text)) → Reads w a .file text
  | dash {text} : a.script = some "-" → w.input = some (Text.Utf8.encode text) →
      Reads w a .dash text
  | piped {text} : a.script = none → w.input = some (Text.Utf8.encode text) →
      Reads w a .piped text

/-- Two worlds with the same configuration, in which the same arguments lead to the same host. -/
structure SameHost (a : Arguments) (w w' : World) : Prop where
  settings : Settings.load w'.files w'.environment = Settings.load w.files w.environment
  host : chooseHost w' a (Settings.load w.files w.environment) =
    chooseHost w a (Settings.load w.files w.environment)
  machine : w'.machine = w.machine
  colours : w'.colours = w.colours

/-- The run probes the host with this body: it asks what the probe asks, and prints the report. -/
structure Measures (w : World) (a : Arguments) (s : Settings) (exit : Exit) (selected : Selected)
    (body : String) : Prop where
  calls : exit.calls = ((Prober.mk body).probe (selected.host w.machine) 0).calls
  report : ∀ r, ((Prober.mk body).probe (selected.host w.machine) 0).result = .ok r →
    Reported w a s exit ⟨body⟩ selected r

variable {w w' : World} {a : Arguments} {source : Source} {text : String}

theorem Reads.probes_of_blank (h : Reads w a .piped text) (hblank : Text.allBlank text = true) :
    Probes w a .standard := by
  cases h with
  | piped hscript hinput =>
    exact .blank hscript hinput (by rwa [ScriptSource.allBlank_trimTrailingNewlines])

theorem Reads.probes (h : Reads w a source text)
    (hused : ¬ (source = .piped ∧ Text.allBlank text = true)) :
    Probes w a ⟨trimTrailingNewlines text⟩ := by
  cases h with
  | file hscript hpath hfile => exact .file hscript hpath hfile
  | dash hscript hinput => exact .dash hscript (by rw [hinput, Option.getD_some])
  | piped hscript hinput =>
    refine .piped hscript hinput ?_
    rw [ScriptSource.allBlank_trimTrailingNewlines]
    simpa using hused

theorem Reads.chooseProber_append {ends : String} (h : Reads w a source text)
    (h' : Reads w' a source (text ++ ends)) (hends : ∀ c ∈ ends.toList, c = '\n' ∨ c = '\r') :
    chooseProber w' a = chooseProber w a := by
  have htrim := ScriptSource.trimTrailingNewlines_append text hends
  have hblank : Text.allBlank (text ++ ends) = Text.allBlank text := by
    rw [← ScriptSource.allBlank_trimTrailingNewlines, htrim,
      ScriptSource.allBlank_trimTrailingNewlines]
  -- both texts are blank or neither is, so that both stand for the default body or neither does
  by_cases hdefault : source = .piped ∧ Text.allBlank text = true
  · obtain ⟨rfl, htext⟩ := hdefault
    rw [(h.probes_of_blank htext).chosen, (h'.probes_of_blank (hblank.trans htext)).chosen]
  · have hused : ¬ (source = .piped ∧ Text.allBlank (text ++ ends) = true) := by
      rwa [hblank]
    rw [(h.probes hdefault).chosen, (h'.probes hused).chosen, htrim]

theorem SameHost.runCapacity (h : SameHost a w w')
    (hprober : chooseProber w' a = chooseProber w a) :
    CommandLine.runCapacity w' a (Settings.load w.files w.environment) =
      CommandLine.runCapacity w a (Settings.load w.files w.environment) := by
  simp only [CommandLine.runCapacity, hprober, h.host, probeHost, printCapacity, h.machine,
    h.colours]

theorem SameHost.run {args : List String} (h : SameHost a w w')
    (hargs : Request.ofArgs args = .run a) (hcapacity : a.runtime = false)
    (hprober : chooseProber w' a = chooseProber w a) : run w' args = run w args := by
  rw [run_eq_runWith hargs, run_eq_runWith hargs, h.settings, runWith_capacity _ _ hcapacity,
    runWith_capacity _ _ hcapacity, h.runCapacity hprober]

theorem sameHost_input (a : Arguments) (w : World) (input : Option (List UInt8)) :
    SameHost a w { w with input := input } := ⟨rfl, rfl, rfl, rfl⟩

theorem calls_probeHost (w : World) (a : Arguments) (s : Settings) (p : Prober)
    (selected : Selected) :
    (probeHost w a s p selected).calls = (p.probe (selected.host w.machine) 0).calls := by
  rw [probeHost]
  cases (p.probe (selected.host w.machine) 0).result <;> rfl

theorem measures_of_probes {args : List String} {body : String} {selected : Selected}
    (hargs : Request.ofArgs args = .run a) (hcapacity : a.runtime = false)
    (hprobes : Probes w a ⟨body⟩)
    (hselects : Selects w a (Settings.load w.files w.environment) selected) :
    Measures w a (Settings.load w.files w.environment) (CommandLine.run w args) selected body := by
  rw [run_eq_runWith hargs, runWith_capacity _ _ hcapacity]
  simp only [runCapacity, hprobes.chosen, hselects.chosen]
  refine ⟨calls_probeHost w a _ _ selected, ?_⟩
  intro r hr
  exact (reported_probeHost hr).noted _

/-- Line ends after a script change nothing in a capacity run. Its body is the longest beginning of
the script that does not end in a line end, even if that is blank; but blank input that is piped in
unasked leads to the run without any script, which has the default body. -/
theorem trailing_newlines_unmeasured (w w' : World) (args : List String) (a : Arguments)
    (source : Source) (text ends : String) (hargs : Request.ofArgs args = .run a)
    (hcapacity : a.runtime = false) (hends : ∀ c ∈ ends.toList, c = '\n' ∨ c = '\r')
    (hreads : Reads w a source text) (hreads' : Reads w' a source (text ++ ends))
    (hsame : SameHost a w w') :
    let s := Settings.load w.files w.environment
    let exit := CommandLine.run w args
    CommandLine.run w' args = exit ∧
    (∃ body, IsBody text body ∧ (¬ (source = .piped ∧ Text.allBlank text = true) →
      ∀ selected, Selects w a s selected → Measures w a s exit selected body)) ∧
    (source = .piped → Text.allBlank text = true →
      CommandLine.run { w with input := none } args = exit ∧
      ∀ selected, Selects w a s selected → Measures w a s exit selected "return true;") := by
  intro s exit
  refine ⟨?_, ⟨trimTrailingNewlines text, ?_, ?_⟩, ?_⟩
  · exact hsame.run hargs hcapacity (hreads.chooseProber_append hreads' hends)
  · exact ScriptSource.isBody_trimTrailingNewlines text
  · intro hused selected hselects
    exact measures_of_probes hargs hcapacity (hreads.probes hused) hselects
  · rintro rfl hblank
    have hstandard := hreads.probes_of_blank hblank
    constructor
    · apply (sameHost_input a w none).run hargs hcapacity
      cases hreads with
      | piped hscript _ =>
        have hterminal : Probes { w with input := none } a .standard := .terminal hscript rfl
        rw [hterminal.chosen, hstandard.chosen]
    · intro selected hselects
      exact measures_of_probes hargs hcapacity hstandard hselects

/-- Two blanks with and without line ends after them. Asked for by a dash, the blanks are the body;
piped in unasked, they are no script. -/
theorem trailing_newlines_unmeasured_blanks :
    let machine : Command.Machine := ⟨.error .notFound, .ok (), .ok (), fun _ => .error .notFound⟩
    let world (text : String) : World :=
      ⟨⟨[], []⟩, ⟨[], none⟩, some (Text.Utf8.encode text), false, fun _ => machine⟩
    let args := ["--host", "limit", "--limit=100"]
    let asking := "--script=-" :: args
    let host : Host Command.Fault Nat := .limit 100
    CommandLine.run (world "  \r\n\n") asking = CommandLine.run (world "  ") asking ∧
      (CommandLine.run (world "  ") asking).calls = ((Prober.mk "  ").probe host 0).calls ∧
      CommandLine.run (world "  \r\n\n") args = CommandLine.run (world "  ") args ∧
      (CommandLine.run (world "  ") args).calls = ((Prober.mk "return true;").probe host 0).calls := by
  intro machine world args asking host
  let a : Arguments := { Arguments.empty with host := some .limit, limit := some 100 }
  let asks : Arguments := { a with script := some "-" }
  have hargs : Request.ofArgs args = .run a := by decide
  have hasking : Request.ofArgs asking = .run asks := by decide
  have hends : ∀ c ∈ "\r\n\n".toList, c = '\n' ∨ c = '\r' := by simp
  have hselects (a : Arguments) (h : a.host = some .limit) (hlimit : a.limit = some 100) (s) :
      Selects (world "  ") a s (.limit 100) := .limit (.flag h) (by rw [hlimit]; rfl)
  obtain ⟨hrun, ⟨body, hbody, hmeasures⟩, -⟩ :=
    trailing_newlines_unmeasured (world "  ") (world "  \r\n\n") asking asks .dash "  "
      "\r\n\n" hasking rfl hends (.dash rfl rfl) (.dash rfl rfl) (sameHost_input _ _ _)
  obtain rfl : body = "  " := by
    have hunended : ScriptSource.Unended "  ".toList := by
      intro c hc
      obtain rfl : ' ' = c := Option.some.inj hc
      decide
    have hlong := hbody.longest _ (List.prefix_refl _) hunended
    exact String.toList_inj.mp (hbody.isPrefix.eq_of_length_le hlong)
  obtain ⟨hrun', -, hdefault⟩ :=
    trailing_newlines_unmeasured (world "  ") (world "  \r\n\n") args a .piped "  "
      "\r\n\n" hargs rfl hends (.piped rfl rfl) (.piped rfl rfl) (sameHost_input _ _ _)
  exact ⟨hrun, (hmeasures nofun _ (hselects asks rfl rfl _)).calls, hrun',
    ((hdefault rfl (by decide)).2 _ (hselects a rfl rfl _)).calls⟩

end CommandLine

end HostProbe
