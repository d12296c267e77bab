import GraphStore.Index.FieldSpace
import GraphStore.Index.Settings
import GraphStore.Index.FieldValue
import GraphStore.Search.Clause
import GraphStore.Text.Lowercase

/-!
Requests to the search backend of a mixed index. A condition is lowered leaf by leaf. The mapping of a
string field says which predicates it can answer: analyzed text answers the predicates on words, an
exact form those on the whole string, and a field with both keeps the exact form under a name of its
own.
-/
namespace GraphStore

/-- A key of an index, as a query addresses it. -/
structure QueryField where
  name : String
  mapping : Mapping
  deriving DecidableEq, Repr

structure SortClause where
  field : String
  order : SortOrder
  deriving DecidableEq, Repr

structure SearchRequest where
  store : String
  index : String
  query : Clause
  sort : List SortClause
  deriving Repr

def SortClause.toJson (s : SortClause) : Json :=
  let word := match s.order with
    | .ascending => "asc"
    | .descending => "desc"
  .record [(s.field, .record [("order", .string word)])]

/-- What is sent to the backend. -/
def SearchRequest.body (r : SearchRequest) : Json :=
  .record (("query", r.query.toJson) ::
    if r.sort.isEmpty then [] else [("sort", .array (r.sort.map (·.toJson)))])

namespace QueryField

/-- The field that holds strings as they stand, if there is one. -/
def exactName? (f : QueryField) (suffix : String) : Option String :=
  match f.mapping with
  | .string => some f.name
  | .textString => some (f.name ++ suffix)
  | .text | .default => none

def notAllowed (f : QueryField) (p : Predicate) : IndexFault :=
  .schemaViolation (.predicateNotAllowed p f.mapping f.name)

/-- A comparison on a field; `≠` is the negation of `=`. -/
def compare (name : String) (c : Comparison) (v : Json) : Clause :=
  match c with
  | .equal => .field (.term name v)
  | .notEqual => .not (.field (.term name v))
  | .less => .field (.range name .below v)
  | .atMost => .field (.range name .upTo v)
  | .greater => .field (.range name .above v)
  | .atLeast => .field (.range name .onwards v)

/-- A text predicate; `name` is the field that answers it. -/
def textClause (name : String) (t : TextPredicate) (s : String) : FieldClause :=
  match t with
  | .contains => .words name s false
  | .containsPhrase => .phrase name s
  | .containsPrefix => .startsWith name (lowercase s)
  | .containsRegex => .regexp name s
  | .containsFuzzy => .words name s true
  | .startsWith => .startsWith name s
  | .regex => .regexp name s
  | .fuzzy => .fuzzy name s

def stringLeaf (f : QueryField) (suffix : String) (p : Predicate) (s : String) :
    Except IndexFault Clause :=
  match p with
  | .within _ => .error (.invalidQuery (.distanceOnString f.name))
  | .compare c =>
    match f.exactName? suffix with
    | some name => .ok (compare name c (.string s))
    | none =>
      if c.isOrdering then .ok (compare f.name c (.string s)) else .error (f.notAllowed p)
  | .text t =>
    if t.isContains then
      if f.mapping.isAnalyzed then .ok (.field (textClause f.name t s)) else .error (f.notAllowed p)
    else
      match f.exactName? suffix with
      | some name => .ok (.field (textClause name t s))
      | none => .error (f.notAllowed p)

/-- Numbers and dates compare in every way. -/
def isOrdered : Value → Bool
  | .int _ | .float _ | .date _ => true
  | _ => false

/-- Truth values and uuids are only equal or not. -/
def isDiscrete : Value → Bool
  | .bool _ | .uuid _ => true
  | _ => false

/-- The clause of a condition's leaf. -/
def leaf (f : QueryField) (suffix : String) (p : Predicate) (v : Value) :
    Except IndexFault Clause :=
  match v, p with
  | .string s, p => f.stringLeaf suffix p s
  | .geo lat lon, .within km =>
    if km.isFinite && !km.isBelowZero then .ok (.field (.distance f.name km lat lon))
    else .error (.invalidQuery (.invalidDistance km))
  | v, .compare c =>
    if isOrdered v || isDiscrete v && !c.isOrdering then .ok (compare f.name c v.searchForm)
    else .error (.invalidQuery (.predicateMismatch p v.dataType f.name))
  | v, p => .error (.invalidQuery (.predicateMismatch p v.dataType f.name))

/-- Analyzed text has no order to sort by. -/
def sort (f : QueryField) (suffix : String) (order : SortOrder) : Except IndexFault SortClause :=
  match f.mapping with
  | .text => .error (.schemaViolation (.sortOnText f.name))
  | .textString => .ok ⟨f.name ++ suffix, order⟩
  | .default | .string => .ok ⟨f.name, order⟩

end QueryField

/-- What requests are made with. -/
structure Translator where
  types : Types
  settings : Settings

namespace Translator

/-- The mapping under which a key is asked for: its declared field's, or else its default field's. -/
def mapping (defaults : DefaultFields) (i : MixedIndex) (key : SchemaId) (name : String) :
    Except IndexFault Mapping :=
  match i.field? key with
  | some f =>
    if f.status.isMaintained then .ok f.mapping
    else .error (.invalidQuery (.fieldDisabled name i.name f.status))
  | none => .ok (((defaults.field? key).map (·.mapping)).getD .default)

def field (t : Translator) (i : MixedIndex) (key : SchemaId) :
    Attempt FieldSpace IndexFault QueryField := do
  let name ← FieldSpace.resolve t.types i key
  return ⟨name, ← Attempt.lift (mapping (← Attempt.get).defaults i key name)⟩

mutual
def lower (t : Translator) (i : MixedIndex) : Condition → Attempt FieldSpace IndexFault Clause
  | .and [] => return .everything
  | .or [] => return .nothing
  | .and (part :: rest) => do return .all (← lowerAll t i (part :: rest))
  | .or (part :: rest) => do return .any (← lowerAll t i (part :: rest))
  | .not part => do return .not (← lower t i part)
  | .leaf key p v => do
    Attempt.lift ((← t.field i key).leaf t.settings.stringSuffix p v)

def lowerAll (t : Translator) (i : MixedIndex) :
    List Condition → Attempt FieldSpace IndexFault (List Clause)
  | [] => return []
  | part :: rest => do
    let clause ← lower t i part
    return clause :: (← lowerAll t i rest)
end

def sortClauses (t : Translator) (i : MixedIndex) :
    List OrderBy → Attempt FieldSpace IndexFault (List SortClause)
  | [] => return []
  | o :: rest => do
    let clause ← Attempt.lift ((← t.field i o.key).sort t.settings.stringSuffix o.order)
    return clause :: (← sortClauses t i rest)

/-- The request that answers a condition on a mixed index, its hits sorted. -/
def request (t : Translator) (i : MixedIndex) (condition : Condition) (order : List OrderBy) :
    Attempt FieldSpace IndexFault SearchRequest := do
  let query ← t.lower i condition
  return ⟨i.store, i.name, query, ← t.sortClauses i order⟩

end Translator

end GraphStore
