import GraphStore.Search.Reference
import GraphStore.Search.Request

/-!
Queries in the backend's own language, with references to keys replaced by field names. Text that takes
the place of a reference is not looked at again.
-/
namespace GraphStore

structure RawQuery where
  store : String
  index : String
  query : String
  offset : Nat
  limit : Option Nat
  deriving DecidableEq, Repr

/-- How references are written, and what takes the place of those that name no field. -/
structure ReferenceStyle where
  mark : String
  wildcard : String
  fallback : Option String
  deriving DecidableEq, Repr

namespace RawQuery

variable {σ : Type}

/-- The text of some pieces. `resolve` finds the field of a name. -/
def fill (style : ReferenceStyle) (raw : String)
    (resolve : String → Attempt σ IndexFault (Option String)) :
    List Reference.Piece → Attempt σ IndexFault (List Char)
  | [] => return []
  | .text cs :: rest => do return cs ++ (← fill style raw resolve rest)
  | .wildcard :: rest => do return style.wildcard.toList ++ (← fill style raw resolve rest)
  | .unterminated :: _ => Attempt.fail (.invalidQuery (.unterminatedQuote raw))
  | .name cs :: rest => do
    let name := String.ofList cs
    match (← resolve name).or style.fallback with
    | some field => return field.toList ++ (← fill style raw resolve rest)
    | none => Attempt.fail (.invalidQuery (.unknownName name))

/-- A raw query with its references replaced. Without a mark there are no references. -/
def substitute (style : ReferenceStyle) (raw : String)
    (resolve : String → Attempt σ IndexFault (Option String)) : Attempt σ IndexFault String := do
  match style.mark.toList with
  | [] => return raw
  | first :: others =>
    let filled ← fill style raw resolve (Reference.pieces first others none raw.toList)
    return String.ofList filled

end RawQuery

namespace Translator

/-- The field of a name of the schema. A key that the index does not cover is as good as unknown. -/
def fieldOfName (t : Translator) (i : MixedIndex) (name : String) :
    Attempt FieldSpace IndexFault (Option String) := fun s =>
  match t.types.named? name with
  | none => (.ok none, s)
  | some type =>
    match FieldSpace.resolve t.types i type.id s with
    | (.ok field, s) => (.ok (some field), s)
    | (.error (.invalidQuery _), s) => (.ok none, s)
    | (.error fault, s) => (.error fault, s)

def raw (t : Translator) (i : MixedIndex) (query : String) (fallback : Option String) :
    Attempt FieldSpace IndexFault RawQuery := do
  let style := ⟨t.settings.rawQueryPrefix, t.settings.wildcardField, fallback⟩
  let filled ← RawQuery.substitute style query (t.fieldOfName i)
  return ⟨i.store, i.name, filled, 0, none⟩

end Translator

end GraphStore
