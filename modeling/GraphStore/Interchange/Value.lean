import GraphStore.Calendar.Rfc3339
import GraphStore.Interchange.Form
import GraphStore.Value.Text

/-! The interchange form of values: a tag for the type, then the value. -/
namespace GraphStore

def DataType.form : Form DataType := .name DataType.name DataType.ofName?

def Timestamp.form : Form Timestamp where
  write t := .string (Rfc3339.text .exact .zulu t)
  read?
    | .string s => Rfc3339.read? s
    | _ => none

/-- Only the text that a uuid is written as is read. -/
def Uuid.ofText? (s : String) : Option Uuid := do
  let digits := s.toList.filter (· ≠ '-')
  let u ← Uuid.ofBytes? (← Hex.bytes? digits)
  if u.text = s then some u else none

def Uuid.form : Form Uuid := .name Uuid.text Uuid.ofText?

namespace Value

def intForm : Form Int64 where
  write i := .int i.toInt
  read?
    | .int i => if Int64.minValue.toInt ≤ i ∧ i ≤ Int64.maxValue.toInt then some (.ofInt i) else none
    | _ => none

def byteForm : Form UInt8 where
  write b := (Form.number 8).write b.toNat
  read? j := ((Form.number 8).read? j).map .ofNat

def write : Value → Json
  | .bool b => Form.tagged "Bool" (Form.bool.write b)
  | .int i => Form.tagged "Int" (intForm.write i)
  | .float x => Form.tagged "Float" (Form.float.write x)
  | .string s => Form.tagged "String" (Form.text.write s)
  | .date t => Form.tagged "Date" (Timestamp.form.write t)
  | .uuid u => Form.tagged "Uuid" (Uuid.form.write u)
  | .geo lat lon => Form.tagged "Geo" (.record [Form.float.put "lat" lat, Form.float.put "lon" lon])
  | .bytes b => Form.tagged "Bytes" (byteForm.list.write b)

def read? (j : Json) : Option Value := do
  match ← Form.tag? j with
  | ("Bool", j) => return .bool (← Form.bool.read? j)
  | ("Int", j) => return .int (← intForm.read? j)
  | ("Float", j) => return .float (← Form.float.read? j)
  | ("String", j) => return .string (← Form.text.read? j)
  | ("Date", j) => return .date (← Timestamp.form.read? j)
  | ("Uuid", j) => return .uuid (← Uuid.form.read? j)
  | ("Geo", j) => return .geo (← Form.float.field? "lat" j) (← Form.float.field? "lon" j)
  | ("Bytes", j) => return .bytes (← byteForm.list.read? j)
  | _ => none

def form : Form Value := ⟨write, read?⟩

end Value

end GraphStore
