import GraphStore.Codec.Ordered

/-!
The compact form of a value, for places where nothing sorts: fixed widths, and a length before text and
bytes. A tagged value says its type in a first byte; a generic key stores its values so.
-/
namespace GraphStore.Compact

def write : Value → Bytes
  | .bool b => [if b then 1 else 0]
  | .int i => bigEndian 8 i.toUInt64.toNat
  | .float x => bigEndian 8 x.bits.toNat
  | .string s => Bytes.lengthPrefixed (Utf8.encode s)
  | .date t => bigEndian 8 (Ordered.millis t).toUInt64.toNat
  | .uuid u => u.bytes
  | .geo lat lon => bigEndian 8 lat.bits.toNat ++ bigEndian 8 lon.bits.toNat
  | .bytes b => Bytes.lengthPrefixed b

/-- The bytes of a value that stand behind a length. -/
def payload : Value → Bytes
  | .string s => Utf8.encode s
  | .bytes b => b
  | _ => []

/-- A length has 32 bits, so a longer text or byte string has no compact form. -/
def fits (v : Value) : Bool := (payload v).length < 0x100000000

def readInt : Reading Int64 := do
  return (← Reading.word).toInt64

def readFloat : Reading Binary64 := do
  return ⟨← Reading.word⟩

def read : DataType → Reading Value
  | .bool => do return .bool ((← Reading.byte) ≠ 0)
  | .int => do return .int (← readInt)
  | .float => do return .float (← readFloat)
  | .string => do
    return .string (← Attempt.lift (Reading.decodeText (← Reading.lengthPrefixed)))
  | .date => do return .date (← Attempt.lift (Ordered.dateOfMillis (← readInt)))
  | .uuid => do return .uuid (← Ordered.readUuid)
  | .geo => do
    let lat ← readFloat
    let lon ← readFloat
    return .geo lat lon
  | .bytes => do return .bytes (← Reading.lengthPrefixed)
  | .generic => Attempt.fail (.invariant .genericUntagged)

/-- The byte that names a type. Values have no generic type, so that has none. -/
def tag : Value → UInt8
  | .bool _ => 1
  | .int _ => 2
  | .float _ => 3
  | .string _ => 4
  | .bytes _ => 5
  | .date _ => 6
  | .uuid _ => 7
  | .geo _ _ => 8

def typeOfTag? (tag : UInt8) : Option DataType :=
  if tag = 1 then some .bool
  else if tag = 2 then some .int
  else if tag = 3 then some .float
  else if tag = 4 then some .string
  else if tag = 5 then some .bytes
  else if tag = 6 then some .date
  else if tag = 7 then some .uuid
  else if tag = 8 then some .geo
  else none

theorem typeOfTag?_tag (v : Value) : typeOfTag? (tag v) = some v.dataType := by cases v <;> rfl

def writeTagged (v : Value) : Bytes := tag v :: write v

def readTagged : Reading Value := do
  let tag ← Reading.byte
  match typeOfTag? tag with
  | some type => read type
  | none => Attempt.fail (.encoding (.unknownTag tag))

end GraphStore.Compact
