import GraphStore.Index.CompositeKey
import GraphStore.Index.Fault
import GraphStore.Search.Condition

/-!
Lookups in a composite index. A condition can be answered if it fixes every field by equality, alone or
among alternatives for one key; the answer is the keys to fetch, one for each choice of alternatives.
-/
namespace GraphStore

structure KeyLookup where
  index : SchemaId
  /-- Distinct keys, the last field varying fastest. -/
  keys : List Bytes
  deriving DecidableEq, Repr

/-- The values that a condition leaves each key. -/
abbrev Constraints := KeyMap (List Value)

def Value.isAmong (v : Value) (vs : List Value) : Bool := vs.any fun w => w.equals v

namespace Constraints

/-- A second constraint on a key leaves what both allow. -/
def constrain (c : Constraints) (key : SchemaId) (values : List Value) : Constraints :=
  match c.get? key with
  | some held => c.insert key (held.filter fun v => v.isAmong values)
  | none => c.insert key values

def equality : Condition → Except QueryFault (SchemaId × Value)
  | .leaf key (.compare .equal) v => .ok (key, v)
  | _ => .error .notEquality

/-- The alternatives of a disjunction after its first branches, which named `key` and `values`. -/
def moreAlternatives (key : SchemaId) (values : List Value) :
    List Condition → Except QueryFault (List Value)
  | [] => .ok values
  | part :: rest => do
    let (k, v) ← equality part
    if k ≠ key then .error .orOverKeys
    else moreAlternatives key (if v.isAmong values then values else values ++ [v]) rest

/-- The key of a disjunction, and the values it may have. -/
def alternatives : List Condition → Except QueryFault (SchemaId × List Value)
  | [] => .error .emptyOr
  | part :: rest => do
    let (key, v) ← equality part
    return (key, ← moreAlternatives key [v] rest)

mutual
/-- Constraints with those of a condition. -/
def collect (c : Constraints) : Condition → Except QueryFault Constraints
  | .and parts => collectAll c parts
  | .or parts => do
    let (key, values) ← alternatives parts
    return c.constrain key values
  | .leaf key predicate value => do
    let (key, v) ← equality (.leaf key predicate value)
    return c.constrain key [v]
  | .not _ => .error .negation

def collectAll (c : Constraints) : List Condition → Except QueryFault Constraints
  | [] => .ok c
  | part :: rest => do collectAll (← collect c part) rest
end

/-- The values of each field, and the constraints on other keys. -/
def ofFields (index : String) (c : Constraints) :
    List SchemaId → Except QueryFault (List (List Value) × Constraints)
  | [] => .ok ([], c)
  | field :: rest =>
    match c.get? field with
    | none => .error (.equalityNeeded index field)
    | some values => do
      let (others, left) ← ofFields index (c.erase field) rest
      return (values :: others, left)

end Constraints

namespace KeyLookup

/-- Every way to take one value from each list; the last varies fastest. -/
def choices : List (List Value) → List (List Value)
  | [] => [[]]
  | values :: rest => values.flatMap fun v => (choices rest).map (v :: ·)

/-- The distinct keys of some choices of values, after the keys found so far. -/
def build (codec : KeyCodec) (types : Types) (i : CompositeIndex) (found : List Bytes) :
    List (List Value) → Except Fault (List Bytes)
  | [] => .ok found
  | values :: rest => do
    let key ← codec.build types i values
    build codec types i (if key ∈ found then found else found ++ [key]) rest

/-- The values that a condition leaves each field of an index. -/
def fieldValues (i : CompositeIndex) (condition : Condition) :
    Except QueryFault (List (List Value)) := do
  if !i.status.isMaintained then .error (.indexDisabled i.name)
  else
    let constraints ← Constraints.collect .empty condition
    let (values, left) ← constraints.ofFields i.name i.fields
    match left.keys.head? with
    | some key => .error (.keyNotCovered key i.name)
    | none => return values

/-- The keys that answer a condition on an index. -/
def ofCondition (codec : KeyCodec) (types : Types) (i : CompositeIndex) (condition : Condition) :
    Except IndexFault KeyLookup := do
  let values ← (fieldValues i condition).mapError IndexFault.invalidQuery
  return ⟨i.id, ← liftFault (build codec types i [] (choices values))⟩

end KeyLookup

end GraphStore
