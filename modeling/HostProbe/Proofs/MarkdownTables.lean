import HostProbe.Proofs.ScenarioRows
import HostProbe.Text.Block
import Mathlib.Data.List.Forall2

/-!
Markdown reports can be read back. Cutting the source at the line breaks gives its lines, and
cutting a table line at the bars gives its cells, as long as no cell holds a bar or a line break.
Numbers and displayed outcomes never hold one; only the name of a row could.
-/

namespace HostProbe

/-- A text in which every piece is followed by the separator is cut into the pieces and an empty
rest. -/
theorem Text.pieces_ended {c : Char} {l : List String} (h : ∀ s ∈ l, c ∉ s.toList) :
    pieces c (String.join (l.map (· ++ String.singleton c))) = l ++ [""] := by
  induction l with
  | nil => rfl
  | cons s l ih =>
    have hfirst : ∀ d ∈ s.toList, (d == c) = false :=
      fun d hd => beq_false_of_ne fun he => h s List.mem_cons_self (he ▸ hd)
    have hrest := ih fun t ht => h t (List.mem_cons_of_mem s ht)
    rw [pieces, List.splitOn_eq_splitOnP] at hrest ⊢
    rw [List.map_cons, String.join_cons, String.toList_append, String.toList_append,
      String.toList_singleton, List.append_assoc, List.singleton_append,
      List.splitOnP_append_cons_of_forall_mem hfirst c (beq_self_eq_true c), List.map_cons, hrest,
      String.ofList_toList, List.cons_append]

namespace Render

open Text (pieces)
open Text.Decimal

/-- Texts that may stand in a cell. -/
structure IsCell (s : String) : Prop where
  noBar : '|' ∉ s.toList
  oneLine : '\n' ∉ s.toList

instance (s : String) : Decidable (IsCell s) :=
  decidable_of_iff ('|' ∉ s.toList ∧ '\n' ∉ s.toList)
    ⟨fun h => ⟨h.1, h.2⟩, fun h => ⟨h.noBar, h.oneLine⟩⟩

theorem isCell_ofNat (n : Nat) : IsCell (ofNat n) :=
  ⟨not_mem_ofNat (by decide) n, not_mem_ofNat (by decide) n⟩

theorem isCell_ofInt (n : Int) : IsCell (ofInt n) :=
  ⟨not_mem_ofInt (by decide) (by decide) n, not_mem_ofInt (by decide) (by decide) n⟩

theorem isCell_display (o : Outcome) : IsCell o.display :=
  ⟨o.not_mem_display (by decide) (by decide), o.not_mem_display (by decide) (by decide)⟩

theorem pieces_unlines {lines : List String} (h : ∀ line ∈ lines, '\n' ∉ line.toList) :
    pieces '\n' (unlines lines) = lines ++ [""] :=
  Text.pieces_ended h

theorem pieces_tableLine {cells : List String} (h : ∀ cell ∈ cells, IsCell cell) :
    pieces '|' (tableLine cells) = "" :: cells ++ [""] := by
  have hbars : ∀ cell ∈ "" :: cells, '|' ∉ cell.toList := by
    rw [List.forall_mem_cons]
    exact ⟨by decide, fun cell hcell => (h cell hcell).noBar⟩
  -- the bar in front of the first cell ends an empty one
  have htext : tableLine cells =
      String.join (("" :: cells).map (· ++ String.singleton '|')) := by
    rw [List.map_cons, String.join_cons]
    rfl
  rw [htext, Text.pieces_ended hbars]

theorem newline_not_mem_tableLine {cells : List String} (h : ∀ cell ∈ cells, IsCell cell) :
    '\n' ∉ (tableLine cells).toList := by
  have hbar : '\n' ∉ "|".toList := by decide
  rw [tableLine, String.toList_append, String.toList_join, List.mem_append, not_or]
  refine ⟨hbar, ?_⟩
  intro hmem
  obtain ⟨text, htext, hmem⟩ := List.mem_flatMap.mp hmem
  obtain ⟨cell, hcell, rfl⟩ := List.mem_map.mp htext
  rw [String.toList_append, List.mem_append] at hmem
  rcases hmem with hmem | hmem
  · exact (h cell hcell).oneLine hmem
  · exact hbar hmem

theorem isCell_rowCells {row : Row} (h : IsCell row.name) :
    ∀ cell ∈ rowCells row, IsCell cell := by
  have hmark : IsCell (if row.matched then "ok" else "**mismatch**") := by
    cases row.matched <;> decide
  simp only [rowCells, List.forall_mem_cons]
  exact ⟨isCell_ofNat _, h, isCell_display _, isCell_display _, hmark,
    fun cell hcell => absurd hcell List.not_mem_nil⟩

/-! Readers of the two kinds of tables. -/

def matched? (s : String) : Option Bool :=
  if s = "ok" then some true else if s = "**mismatch**" then some false else none

def tableRow? (line : String) : Option Row :=
  match pieces '|' line with
  | [_, index, name, observed, expected, result, _] => do
    return ⟨← digits? index.toList, name, ← Outcome.ofChars? observed.toList,
      ← Outcome.ofChars? expected.toList, ← matched? result⟩
  | _ => none

def tableRows? (source : String) : Option (List Row) :=
  ((pieces '\n' source).drop 4).dropLast.mapM tableRow?

/-- A number, or a single minus sign for none. -/
def headroom? (l : List Char) : Option (Option Int) :=
  if l = ['-'] then some none else (Text.Decimal.integer? l).map some

def tableValue? {α : Type} (read : List Char → Option α) (line : String) : Option α :=
  (pieces '|' line)[2]?.bind fun cell => read cell.toList

def tableReport? (source : String) : Option Capacity.Report :=
  match pieces '\n' source with
  | [_, _, _, _, maxLength, bodyLength, headroom, calls, _] => do
    return ⟨← tableValue? Text.Decimal.integer? maxLength, ← tableValue? digits? calls,
      ← tableValue? digits? bodyLength, ← tableValue? headroom? headroom⟩
  | _ => none

/-- A line whose cells are those of the row, so that the row can be read off it. -/
structure ShowsRow (line : String) (row : Row) : Prop where
  cells : pieces '|' line = ["", ofNat row.index, row.name, row.observed.display,
    row.expected.display, if row.matched then "ok" else "**mismatch**", ""]
  recovered : tableRow? line = some row

theorem showsRow_tableLine {row : Row} (h : IsCell row.name) :
    ShowsRow (tableLine (rowCells row)) row := by
  have hcells : pieces '|' (tableLine (rowCells row)) = ["", ofNat row.index, row.name,
      row.observed.display, row.expected.display,
      if row.matched then "ok" else "**mismatch**", ""] := pieces_tableLine (isCell_rowCells h)
  have hmatched : matched? (if row.matched then "ok" else "**mismatch**") = some row.matched := by
    cases row.matched <;> rfl
  refine ⟨hcells, ?_⟩
  rw [tableRow?, hcells]
  simp only [toList_ofNat, digits?_toDigits, Outcome.ofChars?_display, hmatched,
    Option.bind_eq_bind, Option.bind_some, Option.pure_def]

theorem pieces_rowsMarkdown {rows : List Row} (h : ∀ row ∈ rows, IsCell row.name) :
    pieces '\n' (rowsMarkdown rows) =
      rowsHeader ++ rows.map (fun row => tableLine (rowCells row)) ++ [""] := by
  apply pieces_unlines
  intro line hline
  rcases List.mem_append.mp hline with hline | hline
  · have hheader : ∀ line ∈ rowsHeader, '\n' ∉ line.toList := by decide
    exact hheader line hline
  · obtain ⟨row, hrow, rfl⟩ := List.mem_map.mp hline
    exact newline_not_mem_tableLine (isCell_rowCells (h row hrow))

theorem tableRows?_rowsMarkdown {rows : List Row} (h : ∀ row ∈ rows, IsCell row.name) :
    tableRows? (rowsMarkdown rows) = some rows := by
  have hlines : (pieces '\n' (rowsMarkdown rows)).drop 4 =
      rows.map (fun row => tableLine (rowCells row)) ++ [""] := by
    rw [pieces_rowsMarkdown h]
    rfl
  rw [tableRows?, hlines, List.dropLast_concat]
  apply Json.mapM_map_of_inverse
  intro row hrow
  exact (showsRow_tableLine (h row hrow)).recovered

/-- The titles of the scenarios may stand in cells, so every comparison can be read back. -/
theorem tableRows?_compare (observed : List Outcome) :
    tableRows? (rowsMarkdown (Row.compare observed)) = some (Row.compare observed) := by
  have htitles : ∀ title ∈ Scenario.titles, IsCell title := by decide
  apply tableRows?_rowsMarkdown
  intro row hrow
  obtain ⟨i, hi⟩ := Row.exists_alignedAt hrow
  exact htitles row.name (List.mem_of_getElem? hi.name)

/-- A missing headroom is shown by a sign without digits, as no number is. -/
theorem headroom?_shown (headroom : Option Int) :
    headroom? ((headroom.map ofInt).getD "-").toList = some headroom := by
  cases headroom with
  | none => rfl
  | some n =>
    have hnumber := Text.Decimal.integer?_ofInt n
    have hsign : (ofInt n).toList ≠ ['-'] := by
      intro he
      rw [he] at hnumber
      cases hnumber
    rw [Option.map_some, Option.getD_some, headroom?, if_neg hsign, hnumber, Option.map_some]

def reportValues (r : Capacity.Report) : List (String × String) :=
  [("max accepted length", ofInt r.maxLength), ("body length", ofNat r.bodyLength),
    ("headroom", (r.headroom.map ofInt).getD "-"), ("execute calls", ofNat r.calls)]

theorem isCell_headroom (headroom : Option Int) : IsCell ((headroom.map ofInt).getD "-") := by
  cases headroom with
  | none => decide
  | some n => exact isCell_ofInt n

theorem isCell_reportValues (r : Capacity.Report) :
    ∀ p ∈ reportValues r, IsCell p.1 ∧ IsCell p.2 := by
  simp only [reportValues, List.forall_mem_cons]
  exact ⟨⟨by decide, isCell_ofInt _⟩, ⟨by decide, isCell_ofNat _⟩,
    ⟨by decide, isCell_headroom _⟩, ⟨by decide, isCell_ofNat _⟩,
    fun p hp => absurd hp List.not_mem_nil⟩

theorem pieces_capacityMarkdown (r : Capacity.Report) :
    pieces '\n' (capacityMarkdown r) =
      ["## Capacity", "", "|metric|value|", "|-|-|"] ++
        (reportValues r).map (fun p => tableLine [p.1, p.2]) ++ [""] := by
  have hnames : tableLine ["metric", "value"] = "|metric|value|" := by decide
  have hrule : tableLine ["-", "-"] = "|-|-|" := by decide
  have hsource : capacityMarkdown r = unlines (["## Capacity", "", "|metric|value|", "|-|-|"] ++
      (reportValues r).map fun p => tableLine [p.1, p.2]) := by
    rw [← hnames, ← hrule]
    rfl
  rw [hsource]
  apply pieces_unlines
  intro line hline
  rcases List.mem_append.mp hline with hline | hline
  · have hheader : ∀ line ∈ ["## Capacity", "", "|metric|value|", "|-|-|"],
        '\n' ∉ line.toList := by decide
    exact hheader line hline
  · obtain ⟨p, hp, rfl⟩ := List.mem_map.mp hline
    apply newline_not_mem_tableLine
    rw [List.forall_mem_cons, List.forall_mem_singleton]
    exact isCell_reportValues r p hp

theorem tableValue?_tableLine {α : Type} {metric value : String}
    (h : IsCell metric ∧ IsCell value) (read : List Char → Option α) :
    tableValue? read (tableLine [metric, value]) = read value.toList := by
  have hcells : ∀ cell ∈ [metric, value], IsCell cell := by
    rw [List.forall_mem_cons, List.forall_mem_singleton]
    exact h
  rw [tableValue?, pieces_tableLine hcells]
  rfl

theorem tableReport?_capacityMarkdown (r : Capacity.Report) :
    tableReport? (capacityMarkdown r) = some r := by
  have hvalues := isCell_reportValues r
  simp only [reportValues, List.forall_mem_cons] at hvalues
  obtain ⟨hmax, hbody, hheadroom, hcalls, -⟩ := hvalues
  rw [tableReport?, pieces_capacityMarkdown]
  simp only [reportValues, List.map_cons, List.map_nil, List.cons_append, List.nil_append,
    tableValue?_tableLine hmax, tableValue?_tableLine hbody, tableValue?_tableLine hheadroom,
    tableValue?_tableLine hcalls, Text.Decimal.integer?_ofInt, toList_ofNat, digits?_toDigits,
    headroom?_shown, Option.bind_eq_bind, Option.bind_some, Option.pure_def]

/-- The line of the headroom tells apart a missing one and every number. -/
theorem headroom_line_iff (r : Capacity.Report) :
    (pieces '\n' (capacityMarkdown r))[6]? = some "|headroom|-|" ↔ r.headroom = none := by
  have hmissing : tableLine ["headroom", "-"] = "|headroom|-|" := by decide
  have hline : (pieces '\n' (capacityMarkdown r))[6]? =
      some (tableLine ["headroom", (r.headroom.map ofInt).getD "-"]) := by
    rw [pieces_capacityMarkdown]
    rfl
  rw [hline, Option.some.injEq]
  constructor
  · intro hsame
    have hcells : IsCell "headroom" ∧ IsCell ((r.headroom.map ofInt).getD "-") :=
      ⟨by decide, isCell_headroom r.headroom⟩
    have hread := tableValue?_tableLine hcells headroom?
    rw [hsame, headroom?_shown] at hread
    exact (Option.some.inj hread).symm
  · intro hnone
    rw [hnone, ← hmissing]
    rfl

/-- The markdown of a comparison is a table of four fixed lines and one line for each row, in
order; cutting a line at the bars gives the five cells of its row and nothing else, and the row can
be read off them. So lists of rows whose names may stand in cells have the same markdown only if
they are equal. The markdown of a report can be read back too, and a headroom that is missing has a
line that no number has. -/
theorem markdown_tables_faithful (rows : List Row) (h : ∀ row ∈ rows, IsCell row.name) :
    (∃ lines, pieces '\n' (rowsMarkdown rows) =
        ["## Runtime probes", "", "|#|scenario|observed|expected|result|", "|-|-|-|-|-|"] ++
          lines ++ [""] ∧
      List.Forall₂ ShowsRow lines rows) ∧
    tableRows? (rowsMarkdown rows) = some rows ∧
    (∀ others, (∀ row ∈ others, IsCell row.name) →
      rowsMarkdown others = rowsMarkdown rows → others = rows) ∧
    (∀ r, tableReport? (capacityMarkdown r) = some r) ∧
    Function.Injective capacityMarkdown ∧
    ∀ r, (pieces '\n' (capacityMarkdown r))[6]? = some "|headroom|-|" ↔ r.headroom = none := by
  have hread := tableRows?_rowsMarkdown h
  refine ⟨⟨rows.map fun row => tableLine (rowCells row), ?_, ?_⟩, hread, ?_,
    tableReport?_capacityMarkdown, ?_, headroom_line_iff⟩
  · have hheader : rowsHeader = ["## Runtime probes", "",
        "|#|scenario|observed|expected|result|", "|-|-|-|-|-|"] := by decide
    rw [pieces_rowsMarkdown h, hheader]
  · rw [List.forall₂_map_left_iff, List.forall₂_same]
    intro row hrow
    exact showsRow_tableLine (h row hrow)
  · intro others hothers hsame
    rw [← hsame, tableRows?_rowsMarkdown hothers] at hread
    exact Option.some.inj hread
  · intro r r' hsame
    apply Option.some.inj
    rw [← tableReport?_capacityMarkdown r, hsame, tableReport?_capacityMarkdown r']

/-- Names that look like outcomes and marks, and outcomes that look like lists. -/
theorem markdown_tables_faithful_lookalikes :
    let rows : List Row := [⟨0, "[1, 2] ok", .lengths [], .lengths [1, 2], false⟩,
      ⟨10, "", .int (-1), .absent, true⟩]
    (∀ row ∈ rows, IsCell row.name) ∧ tableRows? (rowsMarkdown rows) = some rows ∧
      ∃ lines, pieces '\n' (rowsMarkdown rows) = rowsHeader ++ lines ++ [""] ∧
        lines.length = 2 := by
  intro rows
  have h : ∀ row ∈ rows, IsCell row.name := by decide
  obtain ⟨⟨lines, hlines, hshows⟩, hread, -⟩ := markdown_tables_faithful rows h
  exact ⟨h, hread, lines, hlines, hshows.length_eq⟩

end Render

end HostProbe
