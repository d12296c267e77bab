import GraphStore.Graph.Relation
import GraphStore.Interchange.Form
import GraphStore.Text.Hex

/-!
Terse forms: JSON for scripts and tools. Tags are short, bytes are hexadecimal digits, and a float is
the digits of its bits, so nothing is lost on the way.
-/
namespace GraphStore.Terse

def bytes : Form Bytes where
  write b := .string (Hex.bytes b)
  read?
    | .string s => Hex.bytes? s.toList
    | _ => none

def float : Form Binary64 where
  write x := .string (Hex.word x.bits)
  read?
    | .string s => (Hex.number? s.toList).map fun n => ⟨UInt64.ofNat n⟩
    | _ => none

/-- Milliseconds from the start of 1970, with the nanoseconds left over as a second number. A leap second is
read from nanoseconds that go past the end of its second, and is written as the second after it. -/
def date : Form Timestamp where
  write t :=
    let rest := t.nanos % 1000000
    if rest = 0 then .int t.millis else .array [.int t.millis, .int rest]
  read?
    | .int ms => Timestamp.ofMillis? ms
    | .array [.int ms, .int rest] =>
      Timestamp.ofParts? (ms / 1000) ((ms % 1000).toNat * 1000000 + rest.toNat)
    | _ => none

def place : Form (Binary64 × Binary64) where
  write p := .array [float.write p.1, float.write p.2]
  read?
    | .array [a, b] => do return (← float.read? a, ← float.read? b)
    | _ => none

namespace Value

def write : Value → Json
  | .bool b => Form.tagged "bool" (.bool b)
  | .int i => Form.tagged "int" (.int i.toInt)
  | .float x => Form.tagged "float" (float.write x)
  | .string s => Form.tagged "string" (.string s)
  | .date t => Form.tagged "date" (date.write t)
  | .uuid u => Form.tagged "uuid" (bytes.write u.bytes)
  | .geo lat lon => Form.tagged "geo" (place.write (lat, lon))
  | .bytes b => Form.tagged "bytes" (bytes.write b)

/-- A number that fits 32 bits may be marked so, and is an integer like any other. -/
def read? : Json → Option Value
  | .object [("bool", .bool b)] => some (.bool b)
  | .object [("int", .int i)] => some (.int (.ofInt i))
  | .object [("int32", .int i)] => some (.int (.ofInt i))
  | .object [("float", j)] => (float.read? j).map .float
  | .object [("string", .string s)] => some (.string s)
  | .object [("date", j)] => (date.read? j).map .date
  | .object [("uuid", j)] => ((bytes.read? j).bind Uuid.ofBytes?).map .uuid
  | .object [("geo", j)] => (place.read? j).map fun p => .geo p.1 p.2
  | .object [("bytes", j)] => (bytes.read? j).map .bytes
  | _ => none

end Value

def value : Form Value := ⟨Value.write, Value.read?⟩

/-- A key with something under it. -/
def keyed {α : Type} (f : Form α) : Form (SchemaId × α) where
  write e := .array [Form.schemaId.write e.1, f.write e.2]
  read?
    | .array [key, a] => do return (← Form.schemaId.read? key, ← f.read? a)
    | _ => none

/-- A list of pairs; of two with one key the later counts. -/
def properties : Form Properties where
  write p := (keyed value).list.write p.entries
  read? j := ((keyed value).list.read? j).map KeyMap.ofList

end GraphStore.Terse
