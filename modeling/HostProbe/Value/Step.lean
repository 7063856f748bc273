import HostProbe.Value.Basic

/-!
Steps over script values: operations on one array or one object, what they show, and stores of
named variables. The argument of `pushFrom` is itself a list of steps on the array, to any depth.
-/

namespace HostProbe

inductive ArrayStep where
  | len
  | isEmpty
  | get (i : Nat)
  | setLen (n : Nat)
  | push (v : Value)
  | pop
  | setAttr (name : String) (v : Value)
  | attr (name : String)
  | value (v : Value)
  | self
  | pushFrom (argument : List ArrayStep)

inductive ObjectStep where
  | set (key : String) (v : Value)
  | get (key : String)
  | length
  | keys

/-- What a step shows. For `pushFrom` these are the inner steps, each with the array after it. -/
inductive Observation where
  | nothing
  | flag (b : Bool)
  | count (n : Nat)
  | value (v : Value)
  | missing
  | keys (l : List String)
  | inner (l : List (Observation × ScriptArray))

/-- The value a step yields: what it read, a count as an integer, and null for the rest. -/
def Observation.yielded : Observation → Value
  | .value v => v
  | .count n => .int (Int32.ofNat n)
  | _ => .null

mutual

def ArrayStep.run : ArrayStep → ScriptArray → Observation × ScriptArray
  | .len, a => (.count a.len, a)
  | .isEmpty, a => (.flag a.isEmpty, a)
  | .get i, a => ((a.get? i).elim .missing .value, a)
  | .setLen n, a => (.nothing, a.setLen n)
  | .push v, a => (.nothing, a.push v)
  | .pop, a => (.value a.pop.1, a.pop.2)
  | .setAttr name v, a => (.nothing, a.setAttr name v)
  | .attr name, a => (.value (a.attr name), a)
  | .value v, a => (.value v, a)
  | .self, a => (.value a.toValue, a)
  | .pushFrom argument, a =>
    let shown := ArrayStep.runAll argument a
    let last := (shown.getLast?.map Prod.fst).getD .nothing
    let after := (shown.getLast?.map Prod.snd).getD a
    (.inner shown, a.pushFrom fun _ => (last.yielded, after))

/-- Runs steps one after another and keeps what each shows with the array after it. -/
def ArrayStep.runAll : List ArrayStep → ScriptArray → List (Observation × ScriptArray)
  | [], _ => []
  | step :: steps, a =>
    let shown := step.run a
    shown :: ArrayStep.runAll steps shown.2

end

def ObjectStep.run : ObjectStep → ScriptObject → Observation × ScriptObject
  | .set key v, o => (.nothing, o.set key v)
  | .get key, o => (.value (o.get key), o)
  | .length, o => (.count o.length, o)
  | .keys, o => (.keys o.keys, o)

/-- Named variables; a variable that was never assigned reads as null. -/
abbrev Store := Table Value

def Store.read (s : Store) (name : String) : Value := (Table.find? name s).getD .null

inductive Action where
  | assign (v : Value)
  | isNull
  | equals (v : Value)
  | onArray (step : ArrayStep)
  | onObject (step : ObjectStep)

/-- An action on a variable; what an array or object step yields may go into another one. -/
structure Instruction where
  name : String
  action : Action
  into : Option String

/-- Executes an instruction. There is no result when the variable has the wrong shape. -/
def Store.execute (s : Store) (i : Instruction) : Option (Observation × Store) :=
  let keep (o : Observation) (s : Store) : Observation × Store :=
    match i.into with
    | some into => (o, Table.insert into o.yielded s)
    | none => (o, s)
  match i.action, s.read i.name with
  | .assign v, _ => some (.nothing, Table.insert i.name v s)
  | .isNull, v => some (.flag v.isNull, s)
  | .equals w, v => some (.flag (v.same w), s)
  | .onArray step, .array items attributes =>
    let (o, a) := step.run ⟨items, attributes⟩
    some (keep o (Table.insert i.name a.toValue s))
  | .onObject step, .object entries =>
    let (o, b) := step.run ⟨entries⟩
    some (keep o (Table.insert i.name b.toValue s))
  | _, _ => none

end HostProbe
