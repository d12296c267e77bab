import GraphStore.Calendar.Rfc3339
import GraphStore.Decimal.Notation
import GraphStore.Text.Quoted
import GraphStore.Value

/-! Values as messages show them. -/
namespace GraphStore

/-- Groups of 8, 4, 4, 4 and 12 digits. -/
def Uuid.text (u : Uuid) : String :=
  let part (first count : Nat) := Hex.bytes ((u.bytes.drop first).take count)
  part 0 4 ++ "-" ++ part 4 2 ++ "-" ++ part 6 2 ++ "-" ++ part 8 2 ++ "-" ++ part 10 6

def Value.text : Value → String
  | .bool b => if b then "true" else "false"
  | .int i => toString i.toInt
  | .float x => Decimal.plain.text x
  | .string s => Quoted.text s
  | .date t => Rfc3339.text .exact .numeric t
  | .uuid u => u.text
  | .geo lat lon => "POINT(" ++ Decimal.plain.text lon ++ " " ++ Decimal.plain.text lat ++ ")"
  | .bytes b => s!"<{b.length} bytes>"

end GraphStore
