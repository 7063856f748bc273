import HostProbe.Proofs.OutcomeDisplay
import HostProbe.Render.Markdown

/-!
Comparisons of observed with expected outcomes. There is one row for each observed outcome that has
a scenario; the rows are aligned with the tables of titles and expected outcomes. A printed row is
marked as agreeing exactly when the two outcomes it shows look the same.
-/

namespace HostProbe

/-- The titles of all scenarios, in their order. -/
def Scenario.titles : List String := all.map title

namespace Row

/-- The row of a pair, with the title at its place. -/
def ofPlace? (observed expected : Outcome) (i : Nat) : Option Row :=
  Scenario.titles[i]?.map fun title =>
    ⟨i + 1, title, observed, expected, decide (observed = expected)⟩

/-- The comparison by tables: outcomes are paired with the expected ones, and titles are looked up
by place. A place outside the table gives no result. -/
def tabulated? (observed : List Outcome) : Option (List Row) :=
  (observed.zip Scenario.expectedOutcomes).zipIdx.mapM fun pair =>
    ofPlace? pair.1.1 pair.1.2 pair.2

/-- A row that stands at place `i` of all the tables. -/
structure AlignedAt (observed : List Outcome) (i : Nat) (row : Row) : Prop where
  index : row.index = i + 1
  name : Scenario.titles[i]? = some row.name
  observed : observed[i]? = some row.observed
  expected : Scenario.expectedOutcomes[i]? = some row.expected
  matched : row.matched = true ↔ row.observed = row.expected

variable {observed : List Outcome} {row : Row} {i : Nat}

theorem compareFrom_eq (index : Nat) (observed : List Outcome) (scenarios : List Scenario) :
    compareFrom index observed scenarios =
      ((observed.zip scenarios).zipIdx index).map fun ((o, s), i) => ofScenario i o s := by
  induction observed generalizing index scenarios with
  | nil => simp [compareFrom]
  | cons o observed ih =>
    cases scenarios with
    | nil => simp [compareFrom]
    | cons s scenarios => simp [compareFrom, ih]

theorem length_compare (observed : List Outcome) :
    (compare observed).length = min observed.length 7 := by
  simp [compare, compareFrom_eq, Scenario.all]

theorem getElem?_compare_eq_some_iff : (compare observed)[i]? = some row ↔
    ∃ o s, observed[i]? = some o ∧ Scenario.all[i]? = some s ∧ ofScenario (i + 1) o s = row := by
  simp only [compare, compareFrom_eq, List.getElem?_map, List.getElem?_zipIdx,
    Option.map_map, Option.map_eq_some_iff, List.getElem?_zip_eq_some, Prod.exists,
    Function.comp_apply, and_assoc, Nat.add_comm 1]

theorem alignedAt_of_getElem? (h : (compare observed)[i]? = some row) :
    AlignedAt observed i row := by
  obtain ⟨o, s, ho, hs, rfl⟩ := getElem?_compare_eq_some_iff.mp h
  have htitle : Scenario.titles[i]? = some s.title := by
    rw [Scenario.titles, List.getElem?_map, hs, Option.map_some]
  have hexpected : Scenario.expectedOutcomes[i]? = some s.expected := by
    rw [Scenario.expectedOutcomes, List.getElem?_map, hs, Option.map_some]
  exact ⟨rfl, htitle, ho, hexpected, decide_eq_true_iff⟩

theorem exists_alignedAt (h : row ∈ compare observed) : ∃ i, AlignedAt observed i row := by
  obtain ⟨i, hi⟩ := List.getElem?_of_mem h
  exact ⟨i, alignedAt_of_getElem? hi⟩

theorem compareFrom_take (index n : Nat) (observed : List Outcome) (scenarios : List Scenario) :
    compareFrom index (observed.take n) scenarios =
      (compareFrom index observed scenarios).take n := by
  induction observed generalizing index n scenarios with
  | nil => simp [compareFrom]
  | cons o observed ih =>
    cases n with
    | zero => simp [compareFrom]
    | succ n =>
      cases scenarios with
      | nil => simp [compareFrom]
      | cons s scenarios => simp [compareFrom, ih]

theorem compare_append (surplus : List Outcome) (h : 7 ≤ observed.length) :
    compare (observed ++ surplus) = compare observed := by
  have hcut : (compare (observed ++ surplus)).take observed.length = compare observed := by
    rw [compare, ← compareFrom_take, List.take_left, compare]
  rw [← hcut, List.take_of_length_le]
  rw [length_compare]
  omega

theorem ofPlace?_scenario {before after : List Scenario} {s : Scenario}
    (h : Scenario.all = before ++ s :: after) (o : Outcome) :
    ofPlace? o s.expected before.length = some (ofScenario (before.length + 1) o s) := by
  have htitle : Scenario.titles[before.length]? = some s.title := by
    simp [Scenario.titles, h]
  rw [ofPlace?, htitle]
  rfl

/-- What is looked up from a place on are the scenarios from that place on. -/
theorem mapM_ofPlace? (before scenarios : List Scenario) (h : Scenario.all = before ++ scenarios)
    (observed : List Outcome) :
    (((observed.zip (scenarios.map Scenario.expected)).zipIdx before.length).mapM fun pair =>
      ofPlace? pair.1.1 pair.1.2 pair.2) =
      some (compareFrom (before.length + 1) observed scenarios) := by
  induction observed generalizing before scenarios with
  | nil => rfl
  | cons o observed ih =>
    cases scenarios with
    | nil => rfl
    | cons s scenarios =>
      have hrest := ih (before ++ [s]) scenarios (by simpa using h)
      rw [List.length_append, List.length_singleton] at hrest
      simp only [List.map_cons, List.zip_cons_cons, List.zipIdx_cons, List.mapM_cons,
        ofPlace?_scenario h, hrest, compareFrom]
      rfl

theorem tabulated?_eq (observed : List Outcome) : tabulated? observed = some (compare observed) :=
  mapM_ofPlace? [] Scenario.all rfl observed

theorem allMatched_compare_iff : allMatched (compare observed) = true ↔
    ∀ i < min observed.length 7, observed[i]? = Scenario.expectedOutcomes[i]? := by
  rw [allMatched, List.all_eq_true]
  constructor
  · intro hall i hi
    rw [← length_compare] at hi
    have hrow := List.getElem?_eq_getElem hi
    have haligned := alignedAt_of_getElem? hrow
    have hmatched := haligned.matched.mp (hall _ (List.mem_of_getElem? hrow))
    rw [haligned.observed, haligned.expected, hmatched]
  · intro hall row hrow
    obtain ⟨i, hi⟩ := List.getElem?_of_mem hrow
    have haligned := alignedAt_of_getElem? hi
    have hlt : i < min observed.length 7 := by
      rw [← length_compare]
      exact (List.getElem?_eq_some_iff.mp hi).1
    have hsame := hall i hlt
    rw [haligned.observed, haligned.expected] at hsame
    exact haligned.matched.mpr (Option.some.inj hsame)

theorem allMatched_compare_iff_eq (h : observed.length = 7) :
    allMatched (compare observed) = true ↔ observed = Scenario.expectedOutcomes := by
  rw [allMatched_compare_iff, h]
  constructor
  · intro hsame
    apply List.ext_getElem?
    intro i
    by_cases hi : i < 7
    · exact hsame i hi
    · have hexpected : Scenario.expectedOutcomes.length = 7 := rfl
      rw [List.getElem?_eq_none (by omega), List.getElem?_eq_none (by omega)]
  · rintro rfl i _
    rfl

/-- A comparison never looks outside its tables. It has a row for every observed outcome that has a
scenario, each in line with the tables, and all rows match when the outcomes agree as far as both
lists go. What is observed beyond the scenarios is left out, and so are scenarios that nothing was
observed for. -/
theorem compare_aligned (observed : List Outcome) :
    tabulated? observed = some (compare observed) ∧
    (compare observed).length = min observed.length 7 ∧
    (∀ i row, (compare observed)[i]? = some row → AlignedAt observed i row) ∧
    (allMatched (compare observed) = true ↔
      ∀ i < min observed.length 7, observed[i]? = Scenario.expectedOutcomes[i]?) ∧
    (observed.length = 7 →
      (allMatched (compare observed) = true ↔ observed = Scenario.expectedOutcomes)) ∧
    (∀ surplus, 7 ≤ observed.length → compare (observed ++ surplus) = compare observed) ∧
    ∀ n, compare (observed.take n) = (compare observed).take n :=
  ⟨tabulated?_eq observed, length_compare observed, fun _ _ => alignedAt_of_getElem?,
    allMatched_compare_iff, allMatched_compare_iff_eq, fun surplus => compare_append surplus,
    fun n => compareFrom_take 1 n observed Scenario.all⟩

end Row

namespace Render

/-- A line of text for two displayed outcomes. Its mark compares what is displayed. -/
def markedLine (colours : Bool) (index : Nat) (name observed expected : String) : String :=
  Text.Decimal.ofNat index ++ ". " ++ padRight 34 name ++ " " ++ padLeft 14 observed ++
    "  (expected " ++ expected ++ ")  " ++
    if observed = expected then paint colours .green "ok" else paint colours .red "MISMATCH"

/-- The cells of a table line for two displayed outcomes, marked likewise. -/
def markedCells (index : Nat) (name observed expected : String) : List String :=
  [Text.Decimal.ofNat index, name, observed, expected,
    if observed = expected then "ok" else "**mismatch**"]

theorem display_eq_iff_matched {observed : List Outcome} {row : Row}
    (h : row ∈ Row.compare observed) :
    row.observed.display = row.expected.display ↔ row.matched = true := by
  obtain ⟨i, hi⟩ := Row.exists_alignedAt h
  rw [Outcome.display_inj, hi.matched]

theorem rowLine_eq_markedLine {row : Row} (colours : Bool)
    (h : row.observed.display = row.expected.display ↔ row.matched = true) :
    rowLine colours row = markedLine colours row.index row.name row.observed.display
      row.expected.display := by
  rw [rowLine, markedLine, mark]
  simp only [h]

theorem rowCells_eq_markedCells {row : Row}
    (h : row.observed.display = row.expected.display ↔ row.matched = true) :
    rowCells row = markedCells row.index row.name row.observed.display row.expected.display := by
  rw [rowCells, markedCells]
  simp only [h]

/-- Displayed outcomes are equal only for equal outcomes. So in the text and in the table of any
comparison, the mark of a row says whether the two outcomes that it shows look the same. -/
theorem marked_ok_iff_shown_alike :
    (∀ o o' : Outcome, o.display = o'.display ↔ o = o') ∧
    ∀ observed, let rows := Row.compare observed
      (∀ row ∈ rows, row.observed.display = row.expected.display ↔ row.matched = true) ∧
      (∀ colours, rowsText colours rows = unlines (rows.map fun row =>
        markedLine colours row.index row.name row.observed.display row.expected.display)) ∧
      rowsMarkdown rows = unlines (rowsHeader ++ rows.map fun row =>
        tableLine (markedCells row.index row.name row.observed.display row.expected.display)) := by
  refine ⟨fun o o' => Outcome.display_inj, ?_⟩
  intro observed rows
  have hmark : ∀ row ∈ rows, row.observed.display = row.expected.display ↔ row.matched = true :=
    fun row hrow => display_eq_iff_matched hrow
  refine ⟨hmark, ?_, ?_⟩
  · intro colours
    apply congrArg unlines
    apply List.map_congr_left
    intro row hrow
    exact rowLine_eq_markedLine colours (hmark row hrow)
  · apply congrArg fun lines => unlines (rowsHeader ++ lines)
    apply List.map_congr_left
    intro row hrow
    rw [rowCells_eq_markedCells (hmark row hrow)]

end Render

end HostProbe
