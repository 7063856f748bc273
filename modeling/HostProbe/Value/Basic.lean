import HostProbe.Table

/-!
Script values: null, 32-bit integers, arrays and objects. Values are copied on assignment and
never shared, so they are plain trees. An array carries named attributes beside its elements; an
object is a table of entries.
-/

namespace HostProbe

inductive Value where
  | null
  | int (n : Int32)
  | array (items : List Value) (attributes : List (String × Value))
  | object (entries : List (String × Value))

namespace Value

instance : Inhabited Value := ⟨null⟩

def isNull : Value → Bool
  | null => true
  | _ => false

mutual

/-- Structural equality. -/
def same : Value → Value → Bool
  | null, null => true
  | int m, int n => m == n
  | array items attributes, array items' attributes' =>
    sameItems items items' && sameEntries attributes attributes'
  | object entries, object entries' => sameEntries entries entries'
  | _, _ => false

def sameItems : List Value → List Value → Bool
  | [], [] => true
  | v :: l, v' :: l' => same v v' && sameItems l l'
  | _, _ => false

def sameEntries : List (String × Value) → List (String × Value) → Bool
  | [], [] => true
  | (k, v) :: l, (k', v') :: l' => k == k' && same v v' && sameEntries l l'
  | _, _ => false

end

/-- Addition of 32-bit integers wraps around. -/
def addInt (a b : Int32) : Int32 := a + b

end Value

/-- A script array: only the elements count towards its length. -/
structure ScriptArray where
  items : List Value
  attributes : Table Value

namespace ScriptArray

def ofInts (l : List Int32) : ScriptArray := ⟨l.map .int, []⟩

def toValue (a : ScriptArray) : Value := .array a.items a.attributes

def len (a : ScriptArray) : Nat := a.items.length

def isEmpty (a : ScriptArray) : Bool := a.items.isEmpty

def get? (a : ScriptArray) (i : Nat) : Option Value := a.items[i]?

/-- Assigning the length cuts the elements or fills up with nulls. -/
def setLen (a : ScriptArray) (n : Nat) : ScriptArray :=
  { a with items := a.items.take n ++ List.replicate (n - a.items.length) .null }

def push (a : ScriptArray) (v : Value) : ScriptArray :=
  { a with items := a.items ++ [v] }

/-- Takes the last element off (null when there is none) and drops every attribute. -/
def pop (a : ScriptArray) : Value × ScriptArray :=
  (a.items.getLast?.getD .null, ⟨a.items.dropLast, []⟩)

/-- Pushes what `argument` computes from the array. The receiver is taken before the argument
runs, so whatever the argument does to its copy of the array is lost. -/
def pushFrom (a : ScriptArray) (argument : ScriptArray → Value × ScriptArray) : ScriptArray :=
  a.push (argument a).1

def setAttr (a : ScriptArray) (name : String) (v : Value) : ScriptArray :=
  { a with attributes := Table.insert name v a.attributes }

/-- A missing attribute reads as null. -/
def attr (a : ScriptArray) (name : String) : Value :=
  (Table.find? name a.attributes).getD .null

end ScriptArray

/-- A script object: entries in key order. Its length is the number of entries, whatever the
keys are called. -/
structure ScriptObject where
  entries : Table Value

namespace ScriptObject

def empty : ScriptObject := ⟨[]⟩

def toValue (o : ScriptObject) : Value := .object o.entries

def ofPairs (pairs : List (String × Value)) : ScriptObject := ⟨Table.ofPairs pairs⟩

def set (o : ScriptObject) (key : String) (v : Value) : ScriptObject :=
  ⟨Table.insert key v o.entries⟩

/-- A missing key reads as null. -/
def get (o : ScriptObject) (key : String) : Value :=
  (Table.find? key o.entries).getD .null

def length (o : ScriptObject) : Nat := o.entries.length

def keys (o : ScriptObject) : List String := Table.keys o.entries

end ScriptObject

end HostProbe
