import GraphStore.Graph.Relation
import GraphStore.Json
import GraphStore.Value.Text

/-!
What a document on a search backend holds in a field: the value in the backend's own form, and beside it
dates, a place, a role and tags of provenance, which come from the properties of the indexed property.
-/
namespace GraphStore

/-- The form of a value on a search backend. Dates keep milliseconds, and places put longitude first. -/
def Value.searchForm : Value → Json
  | .bool b => .bool b
  | .int i => .int i.toInt
  | .float x => .ofFloat x
  | .string s => .string s
  | .date t => .string (Rfc3339.text .millis .zulu t)
  | .uuid u => .string u.text
  | .geo lat lon => .array [.ofFloat lon, .ofFloat lat]
  | .bytes b => .string (Hex.bytes b)

structure FieldValue where
  value : Json
  startDate : Option Timestamp
  endDate : Option Timestamp
  /-- Longitude and latitude. -/
  geo : Option (Binary64 × Binary64)
  role : Option String
  dsr : List String
  deriving Repr

namespace FieldValue

def ofJson (value : Json) : FieldValue := ⟨value, none, none, none, none, []⟩

/-- Put a tag at its place; a tag that is there stays one. -/
def insertTag (tag : String) : List String → List String
  | [] => [tag]
  | t :: rest =>
    if tag = t then t :: rest
    else if tag < t then tag :: t :: rest
    else t :: insertTag tag rest

/-- Tags in ascending order, each once. -/
def sortTags (tags : List String) : List String := tags.foldr insertTag []

def mergeTags (f : FieldValue) (tags : List String) : FieldValue :=
  { f with dsr := sortTags (f.dsr ++ tags) }

end FieldValue

/-- The keys whose values go beside an indexed value. -/
structure AuxiliaryKeys where
  startDate : Option SchemaId
  endDate : Option SchemaId
  geo : Option SchemaId
  role : Option SchemaId
  dsr : Option SchemaId
  deriving DecidableEq, Repr

namespace AuxiliaryKeys

def none : AuxiliaryKeys := ⟨.none, .none, .none, .none, .none⟩

/-- The field value of a property; a meta value of the wrong type is passed over. -/
def fieldValue (a : AuxiliaryKeys) (v : Value) (metadata : Properties) : FieldValue :=
  let get (key : Option SchemaId) : Option Value := key.bind metadata.get?
  { value := v.searchForm
    startDate := (get a.startDate).bind (·.date?)
    endDate := (get a.endDate).bind (·.date?)
    geo := (get a.geo).bind (·.lonLat?)
    role := (get a.role).bind (·.string?)
    dsr := ((get a.dsr).bind (·.string?)).toList }

end AuxiliaryKeys

end GraphStore
