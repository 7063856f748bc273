import HostProbe.Proofs.SpecFile
import HostProbe.Render.Document

/-!
Reports as JSON can be read back. An outcome is written without a tag; its three shapes are told
apart by what a reader finds: a number, a list or null.
-/

namespace HostProbe.Render

open Command.Spec (text? bool?)

def natural? : Json → Option Nat
  | .number literal => Text.Decimal.digits? literal.toList
  | _ => none

def integer? : Json → Option Int
  | .number literal => Text.Decimal.integer? literal.toList
  | _ => none

def optional? {α : Type} (read : Json → Option α) : Json → Option (Option α)
  | .null => some none
  | v => (read v).map some

/-- The values of an object that has exactly these keys, in this order. -/
def fields? (names : List String) : Json → Option (List Json)
  | .object members =>
    if members.map Prod.fst = names.map Json.textPieces then some (members.map Prod.snd) else none
  | _ => none

def outcome? : Json → Option Outcome
  | .null => some .absent
  | .array items => (items.mapM natural?).map .lengths
  | v => (integer? v).map .int

def report? (v : Json) : Option Capacity.Report := do
  match ← fields? ["max_length", "calls", "body_length", "headroom"] v with
  | [maxLength, calls, bodyLength, headroom] =>
    return ⟨← integer? maxLength, ← natural? calls, ← natural? bodyLength,
      ← optional? integer? headroom⟩
  | _ => none

def row? (v : Json) : Option Row := do
  match ← fields? ["index", "name", "observed", "expected", "matches"] v with
  | [index, name, observed, expected, matched] =>
    return ⟨← natural? index, ← text? name, ← outcome? observed, ← outcome? expected,
      ← bool? matched⟩
  | _ => none

def rows? : Json → Option (List Row)
  | .array items => items.mapM row?
  | _ => none

/-! Each reader undoes its writer. -/

theorem natural?_ofNat (n : Nat) : natural? (.ofNat n) = some n := by
  rw [Json.ofNat, natural?, Text.Decimal.toList_ofNat, Text.Decimal.digits?_toDigits]

theorem integer?_ofInt (n : Int) : integer? (.ofInt n) = some n := Text.Decimal.integer?_ofInt n

theorem optional?_ofOption (o : Option Int) : optional? integer? (.ofOption .ofInt o) = some o := by
  cases o with
  | none => rfl
  | some n =>
    change (integer? (.ofInt n)).map some = _
    rw [integer?_ofInt, Option.map_some]

theorem fields?_ofFields (members : List (String × Json)) :
    fields? (members.map Prod.fst) (.ofFields members) = some (members.map Prod.snd) := by
  simp [Json.ofFields, fields?]

theorem outcome?_outcomeDocument (o : Outcome) : outcome? (outcomeDocument o) = some o := by
  cases o with
  | int n =>
    change (integer? (.ofInt n)).map Outcome.int = _
    rw [integer?_ofInt, Option.map_some]
  | lengths l =>
    have hitems : (l.map Json.ofNat).mapM natural? = some l :=
      Json.mapM_map_of_inverse fun n _ => natural?_ofNat n
    rw [outcomeDocument, outcome?, hitems, Option.map_some]
  | absent => rfl

theorem report?_capacityDocument (r : Capacity.Report) :
    report? (capacityDocument r) = some r := by
  have hfields : fields? ["max_length", "calls", "body_length", "headroom"] (capacityDocument r) =
      some [.ofInt r.maxLength, .ofNat r.calls, .ofNat r.bodyLength,
        .ofOption .ofInt r.headroom] :=
    fields?_ofFields [("max_length", _), ("calls", _), ("body_length", _), ("headroom", _)]
  simp only [report?, hfields, Option.bind_eq_bind, Option.bind_some, integer?_ofInt,
    natural?_ofNat, optional?_ofOption, Option.pure_def]

theorem row?_rowDocument (r : Row) : row? (rowDocument r) = some r := by
  have hfields : fields? ["index", "name", "observed", "expected", "matches"] (rowDocument r) =
      some [.ofNat r.index, .ofText r.name, outcomeDocument r.observed,
        outcomeDocument r.expected, .bool r.matched] :=
    fields?_ofFields [("index", _), ("name", _), ("observed", _), ("expected", _), ("matches", _)]
  have hname : text? (.ofText r.name) = some r.name := Command.Spec.text?_eq_some_iff.mpr rfl
  have hmatched : bool? (.bool r.matched) = some r.matched := rfl
  simp only [row?, hfields, hname, hmatched, Option.bind_eq_bind, Option.bind_some,
    natural?_ofNat, outcome?_outcomeDocument, Option.pure_def]

theorem rows?_rowsDocument (rows : List Row) : rows? (rowsDocument rows) = some rows :=
  Json.mapM_map_of_inverse fun row _ => row?_rowDocument row

theorem textual_outcomeDocument (o : Outcome) : Json.Textual (outcomeDocument o) := by
  cases o with
  | int n => exact Json.textual_ofInt n
  | lengths l => exact Json.textual_array_map Json.textual_ofNat l
  | absent => exact .null

theorem textual_capacityDocument (r : Capacity.Report) : Json.Textual (capacityDocument r) := by
  refine .object ?_
  simp only [List.forall_mem_cons]
  exact ⟨Json.textual_ofInt _, Json.textual_ofNat _, Json.textual_ofNat _,
    Json.textual_ofOption Json.textual_ofInt _, fun m hm => absurd hm List.not_mem_nil⟩

theorem textual_rowDocument (r : Row) : Json.Textual (rowDocument r) := by
  refine .object ?_
  simp only [List.forall_mem_cons]
  exact ⟨Json.textual_ofNat _, .string _, textual_outcomeDocument _, textual_outcomeDocument _,
    .bool _, fun m hm => absurd hm List.not_mem_nil⟩

theorem textual_rowsDocument (rows : List Row) : Json.Textual (rowsDocument rows) :=
  Json.textual_array_map textual_rowDocument rows

/-- The text is a document of the grammar, and what its reader decodes is the value. -/
def Tells {α : Type} (decode : Json → Option α) (s : String) (a : α) : Prop :=
  ∃ v, Json.Document s v ∧ Json.parse s = some v ∧ decode v = some a

theorem tells_render {α : Type} {decode : Json → Option α} {v : Json} {a : α}
    (ht : Json.Textual v) (hdecode : decode v = some a) : Tells decode v.render a :=
  ⟨v, ht.document_render, ht.document_render.parse, hdecode⟩

theorem Tells.unique {α : Type} {decode : Json → Option α} {s : String} {a b : α}
    (ha : Tells decode s a) (hb : Tells decode s b) : a = b := by
  obtain ⟨v, -, hv, ha⟩ := ha
  obtain ⟨w, -, hw, hb⟩ := hb
  cases hv.symm.trans hw
  exact Option.some.inj (ha.symm.trans hb)

theorem injective_of_tells {α : Type} {decode : Json → Option α} {print : α → String}
    (h : ∀ a, Tells decode (print a) a) : Function.Injective print := by
  intro a b hab
  exact (h a).unique (hab ▸ h b)

theorem tells_capacityJson (r : Capacity.Report) : Tells report? (capacityJson r) r :=
  tells_render (textual_capacityDocument r) (report?_capacityDocument r)

theorem tells_rowsJson (rows : List Row) : Tells rows? (rowsJson rows) rows :=
  tells_render (textual_rowsDocument rows) (rows?_rowsDocument rows)

/-- Every report and every list of rows is printed as a document that tells it: its fields in
their order, and of each outcome which of the three it is. So no two of them print alike. -/
theorem json_output_decodes :
    (∀ r, Tells report? (capacityJson r) r) ∧
    (∀ rows, Tells rows? (rowsJson rows) rows) ∧
    Function.Injective capacityJson ∧
    Function.Injective rowsJson ∧
    ∀ r rows, capacityJson r ≠ rowsJson rows := by
  refine ⟨tells_capacityJson, tells_rowsJson, injective_of_tells tells_capacityJson,
    injective_of_tells tells_rowsJson, ?_⟩
  intro r rows h
  have hreport := (textual_capacityDocument r).document_render.parse
  have hrows := (textual_rowsDocument rows).document_render.parse
  change Json.parse (capacityJson r) = _ at hreport
  rw [h] at hreport
  cases hreport.symm.trans hrows

end HostProbe.Render
