import HostProbe.Render.Text

/-!
Markdown tables of reports.
-/

namespace HostProbe.Render

/-- A table line: every cell is followed by a bar, and a bar stands in front. -/
def tableLine (cells : List String) : String :=
  "|" ++ String.join (cells.map (· ++ "|"))

open Text.Decimal in
def capacityMarkdown (r : Capacity.Report) : String :=
  unlines (["## Capacity", ""] ++ ([["metric", "value"], ["-", "-"],
    ["max accepted length", ofInt r.maxLength],
    ["body length", ofNat r.bodyLength],
    ["headroom", (r.headroom.map ofInt).getD "-"],
    ["execute calls", ofNat r.calls]].map tableLine))

def rowCells (r : Row) : List String :=
  [Text.Decimal.ofNat r.index, r.name, r.observed.display, r.expected.display,
    if r.matched then "ok" else "**mismatch**"]

/-- The four lines above the rows. -/
def rowsHeader : List String :=
  ["## Runtime probes", "", tableLine ["#", "scenario", "observed", "expected", "result"],
    tableLine ["-", "-", "-", "-", "-"]]

def rowsMarkdown (rows : List Row) : String :=
  unlines (rowsHeader ++ rows.map fun r => tableLine (rowCells r))

end HostProbe.Render
