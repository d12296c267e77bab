import GraphStore.Codec.Compact

/-!
Values under a key that declares their type. A key takes the values of its type, a generic key takes
every value; in the ordered form a generic key has no place, since its bytes would not tell their type.
-/
namespace GraphStore

inductive AttributeMode where
  | compact | ordered
  deriving DecidableEq, Repr

namespace Attribute

def write (declared : DataType) (mode : AttributeMode) (v : Value) : Except Fault Bytes :=
  if !declared.accepts v then .error (.mismatch declared v)
  else
    match mode with
    | .ordered =>
      if declared = .generic then .error (.invariant .genericKeyOrdered)
      else .ok (Ordered.write v)
    | .compact =>
      if !Compact.fits v then .error (.encoding .payloadTooLong)
      else .ok (if declared = .generic then Compact.writeTagged v else Compact.write v)

def read (declared : DataType) : AttributeMode → Reading Value
  | .ordered => Ordered.read declared
  | .compact => if declared = .generic then Compact.readTagged else Compact.read declared

end Attribute

end GraphStore
