import HostProbe.Proofs.OutcomeDisplay
import HostProbe.Render.Text

/-!
Colour changes nothing but colour. A terminal takes a text apart into characters and colour
sequences; only the characters take room. A coloured report has the characters of the plain one,
on the same lines and in the same columns, and between them just the switches around one word.
-/

namespace HostProbe.Render

open Text.Decimal

/-- A character, or a switch to a colour or back to the default. -/
inductive Glyph where
  | char (c : Char)
  | switch (tint : Option Colour)
  deriving DecidableEq, Repr

def Glyph.char? : Glyph → Option Char
  | .char c => some c
  | .switch _ => none

def Glyph.switch? : Glyph → Option (Option Colour)
  | .char _ => none
  | .switch tint => some tint

/-- Takes a text apart. Whatever does not begin a colour sequence is a character. -/
def glyphs : List Char → List Glyph
  | '\x1b' :: '[' :: '3' :: '1' :: 'm' :: l => .switch (some .red) :: glyphs l
  | '\x1b' :: '[' :: '3' :: '2' :: 'm' :: l => .switch (some .green) :: glyphs l
  | '\x1b' :: '[' :: '3' :: '9' :: 'm' :: l => .switch none :: glyphs l
  | c :: l => .char c :: glyphs l
  | [] => []

/-- The text with every colour sequence deleted. -/
def uncoloured (s : String) : String := String.ofList ((glyphs s.toList).filterMap Glyph.char?)

/-- The colour switches of a text, in order. -/
def switches (s : String) : List (Option Colour) := (glyphs s.toList).filterMap Glyph.switch?

/-- A character on the screen, at its place and in its colour. -/
structure Cell where
  line : Nat
  column : Nat
  char : Char
  colour : Option Colour
  deriving DecidableEq, Repr

def Cell.plain (cell : Cell) : Cell := { cell with colour := none }

/-- Puts characters on the screen from a place on. -/
def draw (line column : Nat) (colour : Option Colour) : List Glyph → List Cell
  | [] => []
  | .switch tint :: l => draw line column tint l
  | .char c :: l =>
    ⟨line, column, c, colour⟩ ::
      if c = '\n' then draw (line + 1) 0 colour l else draw line (column + 1) colour l

def screen (s : String) : List Cell := draw 0 0 none (glyphs s.toList)

theorem draw_plain (line column : Nat) (colour : Option Colour) (parts : List Glyph) :
    (draw line column colour parts).map Cell.plain =
      draw line column none ((parts.filterMap Glyph.char?).map .char) := by
  induction parts generalizing line column colour with
  | nil => rfl
  | cons part parts ih =>
    cases part with
    | switch tint => exact ih line column tint
    | char c =>
      by_cases hc : c = '\n'
      · simp [draw, Glyph.char?, Cell.plain, hc, ih]
      · simp [draw, Glyph.char?, Cell.plain, hc, ih]

theorem eq_map_char_of_unswitched {parts : List Glyph} (h : parts.filterMap Glyph.switch? = []) :
    (parts.filterMap Glyph.char?).map .char = parts := by
  induction parts with
  | nil => rfl
  | cons part parts ih =>
    cases part with
    | switch tint => cases h
    | char c => exact congrArg (Glyph.char c :: ·) (ih h)

theorem glyphs_cons {c : Char} (h : c ≠ '\x1b') (l : List Char) :
    glyphs (c :: l) = .char c :: glyphs l := by
  -- the three equations before this one take a text that begins with the escape character
  apply glyphs.eq_4
  · intro tail he _
    exact h he
  · intro tail he _
    exact h he
  · intro tail he _
    exact h he

theorem glyphs_append {l : List Char} (h : '\x1b' ∉ l) (rest : List Char) :
    glyphs (l ++ rest) = l.map .char ++ glyphs rest := by
  induction l with
  | nil => rfl
  | cons c l ih =>
    obtain ⟨hc, hl⟩ := not_or.mp (List.mem_cons.not.mp h)
    rw [List.cons_append, glyphs_cons (Ne.symm hc), ih hl, List.map_cons, List.cons_append]

/-- The text shows the characters of the plain one, with these switches between them, whatever is
written after it. -/
def Tints (tints : List (Option Colour)) (coloured plain : String) : Prop :=
  ∃ parts, (∀ rest, glyphs (coloured.toList ++ rest) = parts ++ glyphs rest) ∧
    parts.filterMap Glyph.char? = plain.toList ∧ parts.filterMap Glyph.switch? = tints

variable {tints more : List (Option Colour)} {coloured plain coloured' plain' : String}

theorem Tints.of_plain {s : String} (h : '\x1b' ∉ s.toList) : Tints [] s s := by
  refine ⟨s.toList.map .char, glyphs_append h, ?_, ?_⟩
  · simp [List.filterMap_map, Function.comp_def, Glyph.char?]
  · simp [List.filterMap_map, Function.comp_def, Glyph.switch?]

theorem Tints.append (h : Tints tints coloured plain) (h' : Tints more coloured' plain') :
    Tints (tints ++ more) (coloured ++ coloured') (plain ++ plain') := by
  obtain ⟨parts, hparts, hchars, htints⟩ := h
  obtain ⟨parts', hparts', hchars', htints'⟩ := h'
  refine ⟨parts ++ parts', ?_, ?_, ?_⟩
  · intro rest
    rw [String.toList_append, List.append_assoc, hparts, hparts', List.append_assoc]
  · rw [List.filterMap_append, hchars, hchars', String.toList_append]
  · rw [List.filterMap_append, htints, htints']

theorem Tints.of_sequence {sequence : String} {tint : Option Colour}
    (h : ∀ rest, glyphs (sequence.toList ++ rest) = .switch tint :: glyphs rest) :
    Tints [tint] sequence "" := ⟨[.switch tint], h, rfl, rfl⟩

theorem tints_start (colour : Colour) : Tints [some colour] colour.start "" := by
  apply Tints.of_sequence
  cases colour with
  | green => exact fun _ => rfl
  | red => exact fun _ => rfl

theorem tints_colourEnd : Tints [none] colourEnd "" := .of_sequence fun _ => rfl

def paintTints (colours : Bool) (colour : Colour) : List (Option Colour) :=
  if colours then [some colour, none] else []

theorem tints_paint (colours : Bool) (colour : Colour) {s : String} (h : '\x1b' ∉ s.toList) :
    Tints (paintTints colours colour) (paint colours colour s) s := by
  cases colours with
  | false => exact .of_plain h
  | true =>
    have hpainted := ((tints_start colour).append (.of_plain h)).append tints_colourEnd
    rw [String.empty_append, String.append_empty] at hpainted
    exact hpainted

theorem Tints.unlines_cons {lines lines' : List String} (h : Tints tints coloured plain)
    (h' : Tints more (unlines lines) (unlines lines')) :
    Tints (tints ++ more) (unlines (coloured :: lines)) (unlines (plain :: lines')) := by
  have hbreak : Tints [] "\n" "\n" := .of_plain (by decide)
  have hline := (h.append hbreak).append h'
  rw [List.append_nil] at hline
  simpa only [unlines, List.map_cons, String.join_cons] using hline

theorem Tints.unlines_plain {lines : List String} (h : ∀ line ∈ lines, '\x1b' ∉ line.toList) :
    Tints [] (unlines lines) (unlines lines) := by
  induction lines with
  | nil => exact .of_plain (by decide)
  | cons line lines ih =>
    obtain ⟨hline, hlines⟩ := List.forall_mem_cons.mp h
    exact (Tints.of_plain hline).unlines_cons (ih hlines)

def laterLines (r : Capacity.Report) : List String :=
  ["body length:         " ++ ofNat r.bodyLength] ++
    (r.headroom.toList.map fun h => "headroom:            " ++ ofInt h) ++
    ["execute calls:       " ++ ofNat r.calls]

theorem laterLines_plain (r : Capacity.Report) : ∀ line ∈ laterLines r, '\x1b' ∉ line.toList := by
  have hline (name number : String) (hname : '\x1b' ∉ name.toList)
      (hnumber : '\x1b' ∉ number.toList) : '\x1b' ∉ (name ++ number).toList := by
    rw [String.toList_append, List.mem_append, not_or]
    exact ⟨hname, hnumber⟩
  intro line hmem
  simp only [laterLines, List.mem_append, List.mem_singleton, List.mem_map, Option.mem_toList]
    at hmem
  rcases hmem with (rfl | ⟨h, -, rfl⟩) | rfl
  · exact hline _ _ (by decide) (not_mem_ofNat (by decide) r.bodyLength)
  · exact hline _ _ (by decide) (not_mem_ofInt (by decide) (by decide) h)
  · exact hline _ _ (by decide) (not_mem_ofNat (by decide) r.calls)

theorem tints_capacityText (colours : Bool) (r : Capacity.Report) :
    Tints (paintTints colours (if r.isUsable then .green else .red)) (capacityText colours r)
      (capacityText false r) := by
  rw [capacityText, capacityText, capacityLines, capacityLines]
  -- a usable report is painted at its first number, an unusable one all over
  cases r.isUsable with
  | true =>
    have hname : Tints [] "max accepted length: " "max accepted length: " := .of_plain (by decide)
    have hvalue := tints_paint colours .green
      (not_mem_ofInt (by decide) (by decide) r.maxLength : '\x1b' ∉ (ofInt r.maxLength).toList)
    have hlines := (hname.append hvalue).unlines_cons (Tints.unlines_plain (laterLines_plain r))
    rw [List.append_nil] at hlines
    exact hlines
  | false =>
    have hmessage : '\x1b' ∉ "host rejected the minimal script; result -1".toList := by decide
    have hend : Tints [] (unlines []) (unlines []) := .of_plain (s := "") (by decide)
    have hline := (tints_paint colours .red hmessage).unlines_cons hend
    rw [List.append_nil] at hline
    exact hline

theorem blanks_plain (n : Nat) : '\x1b' ∉ (blanks n).toList := by
  rw [blanks, String.toList_ofList]
  intro h
  cases List.eq_of_mem_replicate h

/-- The line of a row up to its mark. -/
def rowStem (row : Row) : String :=
  ofNat row.index ++ ". " ++ padRight 34 row.name ++ " " ++ padLeft 14 row.observed.display ++
    "  (expected " ++ row.expected.display ++ ")  "

theorem rowStem_plain {row : Row} (h : '\x1b' ∉ row.name.toList) :
    '\x1b' ∉ (rowStem row).toList := by
  have hindex : '\x1b' ∉ Nat.toDigits 10 row.index := by
    rw [← toList_ofNat]
    exact not_mem_ofNat (by decide) row.index
  have hdisplay (o : Outcome) : '\x1b' ∉ o.display.toList :=
    o.not_mem_display (by decide) (by decide)
  simp [rowStem, padRight, padLeft, String.toList_append, h, hindex, hdisplay, blanks_plain]

theorem tints_mark (colours matched : Bool) :
    Tints (paintTints colours (if matched then .green else .red)) (mark colours matched)
      (mark false matched) := by
  cases matched with
  | true => exact tints_paint colours .green (by decide)
  | false => exact tints_paint colours .red (by decide)

theorem tints_rowLine (colours : Bool) {row : Row} (h : '\x1b' ∉ row.name.toList) :
    Tints (paintTints colours (if row.matched then .green else .red)) (rowLine colours row)
      (rowLine false row) :=
  (Tints.of_plain (rowStem_plain h)).append (tints_mark colours row.matched)

theorem tints_rowsText (colours : Bool) {rows : List Row}
    (h : ∀ row ∈ rows, '\x1b' ∉ row.name.toList) :
    Tints (rows.flatMap fun row => paintTints colours (if row.matched then .green else .red))
      (rowsText colours rows) (rowsText false rows) := by
  induction rows with
  | nil => exact Tints.of_plain (s := "") (by decide)
  | cons row rows ih =>
    obtain ⟨hrow, hrows⟩ := List.forall_mem_cons.mp h
    exact (tints_rowLine colours hrow).unlines_cons (ih hrows)

theorem Tints.glyphs_eq (h : Tints tints coloured plain) :
    (glyphs coloured.toList).filterMap Glyph.char? = plain.toList ∧
      (glyphs coloured.toList).filterMap Glyph.switch? = tints := by
  obtain ⟨parts, hparts, hchars, htints⟩ := h
  have hall : glyphs coloured.toList = parts := by
    simpa [glyphs] using hparts []
  rw [hall]
  exact ⟨hchars, htints⟩

theorem Tints.uncoloured_eq (h : Tints tints coloured plain) : uncoloured coloured = plain := by
  rw [uncoloured, h.glyphs_eq.1, String.ofList_toList]

theorem Tints.switches_eq (h : Tints tints coloured plain) : switches coloured = tints :=
  h.glyphs_eq.2

theorem Tints.screen_eq (h : Tints tints coloured plain) (hplain : Tints [] plain plain) :
    (screen coloured).map Cell.plain = screen plain := by
  have hglyphs := eq_map_char_of_unswitched hplain.switches_eq
  rw [hplain.glyphs_eq.1] at hglyphs
  rw [screen, draw_plain, h.glyphs_eq.1, hglyphs, screen]

/-- Colour changes nothing but colour. Deleting the colour sequences from a coloured report gives
the plain one; on the screen every character stands in the same place in both; and all that colours
add are switches to a colour and back, once for a report and once for a row. -/
theorem colour_changes_only_colour (r : Capacity.Report) (rows : List Row)
    (h : ∀ row ∈ rows, '\x1b' ∉ row.name.toList) :
    uncoloured (capacityText true r) = capacityText false r ∧
    uncoloured (rowsText true rows) = rowsText false rows ∧
    (screen (capacityText true r)).map Cell.plain = screen (capacityText false r) ∧
    (screen (rowsText true rows)).map Cell.plain = screen (rowsText false rows) ∧
    switches (capacityText true r) = [some (if r.isUsable then .green else .red), none] ∧
    switches (rowsText true rows) =
      rows.flatMap (fun row => [some (if row.matched then .green else .red), none]) ∧
    switches (capacityText false r) = [] ∧ switches (rowsText false rows) = [] := by
  have hreport := tints_capacityText true r
  have hplain := tints_capacityText false r
  have hrows := tints_rowsText true h
  have hplainRows := tints_rowsText false h
  have hnone : (rows.flatMap fun row =>
      paintTints false (if row.matched then .green else .red)) = [] :=
    List.flatMap_eq_nil_iff.mpr fun _ _ => rfl
  rw [hnone] at hplainRows
  exact ⟨hreport.uncoloured_eq, hrows.uncoloured_eq, hreport.screen_eq hplain,
    hrows.screen_eq hplainRows, hreport.switches_eq, hrows.switches_eq, hplain.switches_eq,
    hplainRows.switches_eq⟩

/-- Names with everything of a colour sequence but its first character, and a line break. -/
theorem colour_changes_only_colour_brackets :
    let r : Capacity.Report := ⟨-1, 1, 12, none⟩
    let rows : List Row := [⟨1, "[31m\n[39m", .int (-7), .lengths [10, 0], false⟩,
      ⟨2, "[32mok", .absent, .absent, true⟩]
    (∀ row ∈ rows, '\x1b' ∉ row.name.toList) ∧
      uncoloured (rowsText true rows) = rowsText false rows ∧
      switches (rowsText true rows) = [some .red, none, some .green, none] ∧
      switches (capacityText true r) = [some .red, none] := by
  intro r rows
  have h : ∀ row ∈ rows, '\x1b' ∉ row.name.toList := by decide
  obtain ⟨-, herased, -, -, hreport, hrows, -⟩ := colour_changes_only_colour r rows h
  exact ⟨h, herased, hrows, hreport⟩

end HostProbe.Render
