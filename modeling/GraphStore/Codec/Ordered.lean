import GraphStore.Bytes.Reading

/-!
The ordered form of a value: among values of one type it sorts, byte by byte, as the values do, and it
tells where it ends. Numbers have their sign turned so that negative ones come first; text and bytes are
escaped; dates are whole milliseconds. What is not a number has one form, after every number.
-/
namespace GraphStore.Ordered

def int (i : Int64) : Bytes := bigEndian 8 (i.toUInt64 ^^^ 0x8000000000000000).toNat

def readInt : Reading Int64 := do
  return (((← Reading.word) ^^^ 0x8000000000000000).toInt64)

/-- A positive number has its sign bit set, a negative one has every bit turned. -/
def floatWord (x : Binary64) : UInt64 :=
  if x.isNaN then 0xffffffffffffffff
  else if x.negative then ~~~ x.bits
  else x.bits ^^^ 0x8000000000000000

/-- What is not a number is read as this one. -/
def canonicalNaN : Binary64 := ⟨0x7ff8000000000000⟩

def ofFloatWord (w : UInt64) : Binary64 :=
  if w = 0xffffffffffffffff then canonicalNaN
  else if Binary64.signBit ≤ w.toNat then ⟨w ^^^ 0x8000000000000000⟩
  else ⟨~~~ w⟩

def float (x : Binary64) : Bytes := bigEndian 8 (floatWord x).toNat

def readFloat : Reading Binary64 := do
  return ofFloatWord (← Reading.word)

/-- The milliseconds of a date, as a number of 64 bits. -/
def millis (t : Timestamp) : Int64 := Int64.ofInt t.millis

def dateOfMillis (ms : Int64) : Except Fault Timestamp :=
  match Timestamp.ofMillis? ms.toInt with
  | some t => .ok t
  | none => .error (.encoding (.dateOutOfRange ms.toInt))

def readUuid : Reading Uuid := fun bytes =>
  match Reading.take 16 bytes with
  | (.ok taken, rest) =>
    match Uuid.ofBytes? taken with
    | some u => (.ok u, rest)
    | none => (.error (.encoding .endOfInput), rest)
  | (.error fault, rest) => (.error fault, rest)

def write : Value → Bytes
  | .bool b => [if b then 1 else 0]
  | .int i => int i
  | .float x => float x
  | .string s => Bytes.escapedText s
  | .date t => int (millis t)
  | .uuid u => u.bytes
  | .geo lat lon => float lat ++ float lon
  | .bytes b => Bytes.escaped b

/-- Read a value of a declared type. The forms of different types look alike, so a generic key, which
does not say what it holds, cannot be read. -/
def read : DataType → Reading Value
  | .bool => do return .bool ((← Reading.byte) ≠ 0)
  | .int => do return .int (← readInt)
  | .float => do return .float (← readFloat)
  | .string => do return .string (← Reading.escapedText)
  | .date => do return .date (← Attempt.lift (dateOfMillis (← readInt)))
  | .uuid => do return .uuid (← readUuid)
  | .geo => do
    let lat ← readFloat
    let lon ← readFloat
    return .geo lat lon
  | .bytes => do return .bytes (← Reading.escaped)
  | .generic => Attempt.fail (.invariant .genericUnordered)

/-- A value that takes all of the bytes. -/
def decode (declared : DataType) (bytes : Bytes) : Except Fault Value :=
  match read declared bytes with
  | (.ok v, []) => .ok v
  | (.ok _, _ :: _) => .error (.encoding .trailingValueBytes)
  | (.error fault, _) => .error fault

end GraphStore.Ordered
