import GraphStore.Record.Decoded
import GraphStore.Record.Slice
import GraphStore.Terse.Graph

/-! Records as they are shown, and the intervals of a slice as scripts write them down. -/
namespace GraphStore.Terse

open Form

def farEnd : FarEnd → Json
  | .vertex id => tagged "vertex" (text.write id)
  | .value v => tagged "value" (value.write v)

def decoded (d : Decoded) : List (String × Json) :=
  [schemaId.put "type" d.type, ("direction", .string d.direction.name), text.put "id" d.relation,
    ("other", farEnd d.far), properties.optional.put "props" d.properties]

def record (r : Record) : List (String × Json) :=
  [bytes.put "key" r.key, bytes.put "value" r.content, (number 64).put "offset" r.key.length,
    properties.put "metadata" r.metadata]

/-- Null is no bound. -/
def bound? : Json → Option Bound
  | .null => some .unbounded
  | .object [("inc", j)] => (value.read? j).map .included
  | .object [("exc", j)] => (value.read? j).map .excluded
  | _ => none

def interval? : Json → Option Interval
  | .object [("point", j)] => (value.read? j).map .point
  | .object [("range", .array [a, b])] => do return .range (← bound? a) (← bound? b)
  | .object [("half_open", .array [a, b])] => do
    return .range (.included (← value.read? a)) (.excluded (← value.read? b))
  | .object [("closed", .array [a, b])] => do
    return .range (.included (← value.read? a)) (.included (← value.read? b))
  | _ => none

end GraphStore.Terse
