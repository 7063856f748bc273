import HostProbe.Scenario.Outcome
import HostProbe.Value.Basic

/-!
Seven scenarios over script values, what a conforming runtime shows for each of them, and the
comparison of observed with expected outcomes.
-/

namespace HostProbe

/-- The outcome that shows a value: containers show their length. -/
def Outcome.ofValue : Value → Outcome
  | .null => .absent
  | .int n => .int n.toInt
  | .array items _ => .int items.length
  | .object entries => .int entries.length

inductive Scenario where
  | wrappingSum
  | popAfterAssignment
  | objectLength
  | attributeNotCounted
  | truncateThenPush
  | popClearsAttribute
  | pushPopped
  deriving DecidableEq, Repr

namespace Scenario

/-- All scenarios, in the order in which they run. -/
def all : List Scenario :=
  [wrappingSum, popAfterAssignment, objectLength, attributeNotCounted, truncateThenPush,
    popClearsAttribute, pushPopped]

def title : Scenario → String
  | wrappingSum => "int32 overflow on add"
  | popAfterAssignment => "pop after assignment"
  | objectLength => "object length vs data key"
  | attributeNotCounted => "named attribute vs array length"
  | truncateThenPush => "length assignment then push"
  | popClearsAttribute => "pop drops named attributes"
  | pushPopped => "push(pop()) receiver order"

/-- Runs a scenario on script values. -/
def outcome : Scenario → Outcome
  | wrappingSum => .int (Value.addInt 1000000000 2000000000).toInt
  | popAfterAssignment =>
    let x := ScriptArray.ofInts [1, 2]
    let y := x
    .int (y.len - x.pop.2.len)
  | objectLength =>
    .int (ScriptObject.ofPairs [("a", .int 1), ("b", .int 2), ("length", .int 10)]).length
  | attributeNotCounted =>
    .int ((ScriptArray.ofInts [1, 2, 3]).setAttr "test" (.int 123)).len
  | truncateThenPush =>
    let x := ScriptArray.ofInts [1, 2, 3]
    let cut := x.setLen 1
    .lengths [x.len, cut.len, (cut.push (.int 4)).len]
  | popClearsAttribute =>
    let x := (ScriptArray.ofInts [1, 2, 3]).setAttr "test" (.int 123)
    .ofValue (x.pop.2.attr "test")
  | pushPopped => .int ((ScriptArray.ofInts [1]).pushFrom ScriptArray.pop).len

/-- The outcome of a conforming runtime. -/
def expected : Scenario → Outcome
  | wrappingSum => .int (-1294967296)
  | popAfterAssignment => .int 1
  | objectLength => .int 3
  | attributeNotCounted => .int 3
  | truncateThenPush => .lengths [3, 1, 2]
  | popClearsAttribute => .absent
  | pushPopped => .int 2

def outcomes : List Outcome := all.map outcome

def expectedOutcomes : List Outcome := all.map expected

end Scenario

/-- One line of a comparison. -/
structure Row where
  index : Nat
  name : String
  observed : Outcome
  expected : Outcome
  matched : Bool
  deriving DecidableEq, Repr

namespace Row

def ofScenario (index : Nat) (observed : Outcome) (s : Scenario) : Row :=
  ⟨index, s.title, observed, s.expected, decide (observed = s.expected)⟩

/-- Pairs outcomes with scenarios from `index` on; what one list has more is left out. -/
def compareFrom (index : Nat) : List Outcome → List Scenario → List Row
  | o :: outcomes, s :: scenarios =>
    ofScenario index o s :: compareFrom (index + 1) outcomes scenarios
  | _, _ => []

/-- The comparison of observed outcomes with all scenarios, counted from one. -/
def compare (observed : List Outcome) : List Row := compareFrom 1 observed Scenario.all

def allMatched (rows : List Row) : Bool := rows.all Row.matched

end Row

end HostProbe
