import GraphStore.Calendar.Timestamp
import GraphStore.Decimal.Binary64
import GraphStore.Text.Utf8

/-!
The values that a property can hold, and the data types that keys declare. A generic key takes any
value.
-/
namespace GraphStore

/-- Sixteen bytes. -/
structure Uuid where
  bytes : Bytes
  length_eq : bytes.length = 16
  deriving DecidableEq, Repr

def Uuid.ofBytes? (bytes : Bytes) : Option Uuid :=
  if h : bytes.length = 16 then some ⟨bytes, h⟩ else none

inductive DataType where
  | bool | int | float | string | date | uuid | geo | bytes | generic
  deriving DecidableEq, Repr

inductive Value where
  | bool (b : Bool)
  | int (i : Int64)
  | float (x : Binary64)
  | string (s : String)
  | date (t : Timestamp)
  | uuid (u : Uuid)
  | geo (lat lon : Binary64)
  | bytes (b : Bytes)
  deriving DecidableEq, Repr

namespace DataType

def name : DataType → String
  | bool => "Bool"
  | int => "Int"
  | float => "Float"
  | string => "String"
  | date => "Date"
  | uuid => "Uuid"
  | geo => "Geo"
  | bytes => "Bytes"
  | generic => "Generic"

def all : List DataType := [bool, int, float, string, date, uuid, geo, bytes, generic]

def ofName? (name : String) : Option DataType := all.find? (·.name = name)

def isNumeric (t : DataType) : Bool := t = int || t = float

end DataType

namespace Value

def dataType : Value → DataType
  | bool _ => .bool
  | int _ => .int
  | float _ => .float
  | string _ => .string
  | date _ => .date
  | uuid _ => .uuid
  | geo _ _ => .geo
  | bytes _ => .bytes

/-- Equality as a query sees it: floats compare by worth, so both zeros are one value, and what is not
a number equals nothing. -/
def equals : Value → Value → Bool
  | bool a, bool b => a = b
  | int a, int b => a = b
  | float a, float b => a.equals b
  | string a, string b => a = b
  | date a, date b => a = b
  | uuid a, uuid b => a = b
  | geo a b, geo c d => a.equals c && b.equals d
  | bytes a, bytes b => a = b
  | _, _ => false

def string? : Value → Option String
  | string s => some s
  | _ => none

def int? : Value → Option Int64
  | int i => some i
  | _ => none

def date? : Value → Option Timestamp
  | date t => some t
  | _ => none

/-- Longitude and latitude, in the order that maps use. -/
def lonLat? : Value → Option (Binary64 × Binary64)
  | geo lat lon => some (lon, lat)
  | _ => none

end Value

def DataType.accepts (t : DataType) (v : Value) : Bool := t = .generic || v.dataType = t

theorem DataType.generic_accepts (v : Value) : DataType.generic.accepts v = true := rfl

theorem DataType.accepts_iff {t : DataType} (v : Value) (h : t ≠ .generic) :
    t.accepts v = true ↔ v.dataType = t := by
  simp [DataType.accepts, h]

end GraphStore
