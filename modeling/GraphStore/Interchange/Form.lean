import GraphStore.Identifier
import GraphStore.Json
import GraphStore.KeyMap

/-!
Forms in which values leave the store and come back: JSON that other programs can read. A form writes
every value of its type, and reads back what it wrote, except that JSON has no numbers for floats that
are not finite.
-/
namespace GraphStore

structure Form (α : Type) where
  write : α → Json
  read? : Json → Option α

namespace Form

variable {α : Type}

/-- A field of a record. -/
def put (f : Form α) (name : String) (a : α) : String × Json := (name, f.write a)

/-- Read a field, which must be there. -/
def field? (f : Form α) (name : String) (j : Json) : Option α := (j.field? name).bind f.read?

def text : Form String where
  write := .string
  read?
    | .string s => some s
    | _ => none

def bool : Form Bool where
  write := .bool
  read?
    | .bool b => some b
    | _ => none

/-- Numbers of so many bits. -/
def number (bits : Nat) : Form Nat where
  write n := .int n
  read?
    | .int i => if 0 ≤ i ∧ i.toNat < Nat.pow 2 bits then some i.toNat else none
    | _ => none

def schemaId : Form SchemaId where
  write id := (number 64).write id.toNat
  read? j := ((number 64).read? j).map .ofNat

/-- A whole number stands for the float next to it. -/
def float : Form Binary64 where
  write := .ofFloat
  read?
    | .float x => some x
    | .int i => some (.ofInt i)
    | _ => none

/-- One of some names. -/
def name (text : α → String) (ofText? : String → Option α) : Form α where
  write a := .string (text a)
  read?
    | .string s => ofText? s
    | _ => none

/-- A value, or null. -/
def optional (f : Form α) : Form (Option α) where
  write := .ofOption f.write
  read?
    | .null => some none
    | j => (f.read? j).map some

def list (f : Form α) : Form (List α) where
  write l := .array (l.map f.write)
  read?
    | .array items => items.mapM f.read?
    | _ => none

/-- A field that is there and not null. -/
def present? (name : String) (j : Json) : Option Json :=
  match j.field? name with
  | some .null => none
  | found => found

/-- Read a field that may be missing or null. -/
def given? (f : Form α) (name : String) (j : Json) : Option (Option α) :=
  match present? name j with
  | none => some none
  | some j => (f.read? j).map some

/-- Read a field that has a default. -/
def fieldOr? (f : Form α) (name : String) (default : α) (j : Json) : Option α :=
  (f.given? name j).map (·.getD default)

/-- A name of one field that tells what the value is, as in `{"Int": 5}`. -/
def tagged (tag : String) (j : Json) : Json := .record [(tag, j)]

/-- The tag and the value of a tagged form. -/
def tag? : Json → Option (String × Json)
  | .object [field] => some field
  | _ => none

/-- An id that names a field. -/
def idOfText? (s : String) : Option SchemaId :=
  match s.toNat? with
  | some n => if toString n = s ∧ n < UInt64.size then some (.ofNat n) else none
  | none => none

/-- A record whose fields are named by ids. -/
def keyMap (f : Form α) : Form (KeyMap α) where
  write m := .record (m.entries.map fun e => (toString e.1.toNat, f.write e.2))
  read?
    | .object fields =>
      (fields.mapM fun (field : String × Json) => do
        return (← idOfText? field.1, ← f.read? field.2)).map KeyMap.ofList
    | _ => none

end Form

end GraphStore
