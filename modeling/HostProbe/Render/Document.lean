import HostProbe.Capacity.Report
import HostProbe.Json.Writer
import HostProbe.Scenario.Basic

/-!
JSON documents of reports. An outcome is written untagged: a number, a list or null.
-/

namespace HostProbe.Render

def outcomeDocument : Outcome → Json
  | .int n => .ofInt n
  | .lengths l => .array (l.map .ofNat)
  | .absent => .null

def capacityDocument (r : Capacity.Report) : Json :=
  .ofFields [("max_length", .ofInt r.maxLength), ("calls", .ofNat r.calls),
    ("body_length", .ofNat r.bodyLength), ("headroom", .ofOption .ofInt r.headroom)]

def rowDocument (r : Row) : Json :=
  .ofFields [("index", .ofNat r.index), ("name", .ofText r.name),
    ("observed", outcomeDocument r.observed), ("expected", outcomeDocument r.expected),
    ("matches", .bool r.matched)]

def rowsDocument (rows : List Row) : Json := .array (rows.map rowDocument)

def capacityJson (r : Capacity.Report) : String := (capacityDocument r).render

def rowsJson (rows : List Row) : String := (rowsDocument rows).render

end HostProbe.Render
