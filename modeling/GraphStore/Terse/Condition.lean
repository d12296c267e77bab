import GraphStore.Interchange.Schema
import GraphStore.Search.Condition
import GraphStore.Terse.Value

/-! Conditions as scripts write them down, with shorter words for equalities and text predicates. -/
namespace GraphStore.Terse

open Form

def comparison : Form Comparison := .name Comparison.name Comparison.ofName?

def textPredicate : Form TextPredicate := .name TextPredicate.name TextPredicate.ofName?

def predicate? : Json → Option Predicate
  | .object [("cmp", j)] => (comparison.read? j).map .compare
  | .object [("text", j)] => (textPredicate.read? j).map .text
  | .object [("within", j)] => (float.read? j).map .within
  | _ => none

mutual
def condition? : Json → Option Condition
  | .object [("and", .array parts)] => (conditions? parts).map .and
  | .object [("or", .array parts)] => (conditions? parts).map .or
  | .object [("not", part)] => (condition? part).map .not
  | .object [("eq", .array [key, v])] => do
    return .equals (← schemaId.read? key) (← value.read? v)
  | .object [("cmp", .array [c, key, v])] => do
    return .leaf (← schemaId.read? key) (.compare (← comparison.read? c)) (← value.read? v)
  | .object [("text", .array [t, key, s])] => do
    return .leaf (← schemaId.read? key) (.text (← textPredicate.read? t))
      (.string (← text.read? s))
  | .object [("leaf", .array [p, key, v])] => do
    return .leaf (← schemaId.read? key) (← predicate? p) (← value.read? v)
  | _ => none

def conditions? : List Json → Option (List Condition)
  | [] => some []
  | part :: rest => do return (← condition? part) :: (← conditions? rest)
end

def orderBy? : Json → Option OrderBy
  | .array [key, order] => do return ⟨← schemaId.read? key, ← SortOrder.form.read? order⟩
  | _ => none

end GraphStore.Terse
