import GraphStore.Index.Document
import GraphStore.Interchange.Value
import GraphStore.Json.Written

/-!
The JSON of documents. A field value is an object in which what is absent is left out; a field that can
hold many has an array. The reader takes a field value also as an array of its parts in a fixed order,
and an array that can be read so counts as one value before it counts as many.
-/
namespace GraphStore

/-- Longitude, then latitude. -/
def placeForm : Form (Binary64 × Binary64) where
  write p := .array [Form.float.write p.1, Form.float.write p.2]
  read?
    | .array [lon, lat] => do return (← Form.float.read? lon, ← Form.float.read? lat)
    | _ => none

namespace FieldValue

/-- The names of the parts, in the order that an array gives them. -/
def partNames : List String := ["value", "startDate", "endDate", "geo", "role", "dsr"]

/-- The parts that are there, by name. -/
def parts (f : FieldValue) : List (String × Json) :=
  let part {α : Type} (form : Form α) (name : String) (a : Option α) : List (String × Json) :=
    (a.map (form.put name)).toList
  ("value", f.value) :: part Timestamp.form "startDate" f.startDate
    ++ part Timestamp.form "endDate" f.endDate ++ part placeForm "geo" f.geo
    ++ part Form.text "role" f.role
    ++ (if f.dsr.isEmpty then [] else [Form.text.list.put "dsr" f.dsr])

def write (f : FieldValue) : Json := .record f.parts

/-- A part that may be missing, or null. -/
def part? {α : Type} (form : Form α) (parts : List (String × Json)) (name : String) :
    Option (Option α) :=
  match parts.find? (·.1 = name) with
  | none => some none
  | some p => form.optional.read? p.2

/-- A field value of its parts. A value must be there, and tags cannot be null. -/
def ofParts? (parts : List (String × Json)) : Option FieldValue := do
  let value ← parts.find? (·.1 = "value")
  let startDate ← part? Timestamp.form parts "startDate"
  let endDate ← part? Timestamp.form parts "endDate"
  let geo ← part? placeForm parts "geo"
  let role ← part? Form.text parts "role"
  let dsr ←
    match parts.find? (·.1 = "dsr") with
    | none => some []
    | some p => Form.text.list.read? p.2
  return ⟨Json.settle value.2, startDate, endDate, geo, role, dsr⟩

/-- Read a field value. Parts of other names are passed over; one that comes twice is an error. -/
def read? : Json → Option FieldValue
  | .object fields =>
    let known := fields.filter fun f => f.1 ∈ partNames
    if (known.map (·.1)).Nodup then ofParts? known else none
  | .array items => if items.length ≤ partNames.length then ofParts? (partNames.zip items) else none
  | _ => none

def form : Form FieldValue := ⟨write, read?⟩

/-- Equality in which floats compare by worth. -/
def equals (a b : FieldValue) : Bool :=
  let samePlace :=
    match a.geo, b.geo with
    | some p, some q => p.1.equals q.1 && p.2.equals q.2
    | none, none => true
    | _, _ => false
  a.value.equals b.value && a.startDate = b.startDate && a.endDate = b.endDate && samePlace
    && a.role = b.role && a.dsr = b.dsr

end FieldValue

def FieldSlot.form : Form FieldSlot where
  write
    | .single v => v.write
    | .many vs => FieldValue.form.list.write vs
  read? j := ((FieldValue.read? j).map .single).or ((FieldValue.form.list.read? j).map .many)

/-- The slot that a JSON text stands for. -/
def FieldSlot.parse? (text : String) : Option FieldSlot :=
  ((Json.Written.parse? text).bind (·.json? Json.deepest)).bind FieldSlot.form.read?

/-- A document as the search backend takes it. -/
def Document.body (d : Document) : Json :=
  .record (d.fields.map fun f => FieldSlot.form.put f.1 f.2)

end GraphStore
