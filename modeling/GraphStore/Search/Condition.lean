import GraphStore.Decimal.Notation
import GraphStore.Graph.Direction
import GraphStore.Identifier
import GraphStore.Value

/-! Conditions over property keys, as they are asked of an index. -/
namespace GraphStore

inductive Comparison where
  | equal | notEqual | less | atMost | greater | atLeast
  deriving DecidableEq, Repr

/-- Predicates on strings. Those that contain look at the words of analyzed text, the others at the
whole string. -/
inductive TextPredicate where
  | contains | containsPhrase | containsPrefix | containsRegex | containsFuzzy
  | startsWith | regex | fuzzy
  deriving DecidableEq, Repr

inductive Predicate where
  | compare (c : Comparison)
  | text (t : TextPredicate)
  /-- Within so many kilometres of a point. -/
  | within (kilometres : Binary64)
  deriving DecidableEq, Repr

inductive Condition where
  /-- All hold; without any, true. -/
  | and (parts : List Condition)
  /-- Some holds; without any, false. -/
  | or (parts : List Condition)
  | not (part : Condition)
  | leaf (key : SchemaId) (predicate : Predicate) (value : Value)
  deriving Repr

/-- How to sort what is found. -/
structure OrderBy where
  key : SchemaId
  order : SortOrder
  deriving DecidableEq, Repr

namespace Comparison

def all : List Comparison := [equal, notEqual, less, atMost, greater, atLeast]

def name : Comparison → String
  | equal => "Eq"
  | notEqual => "Ne"
  | less => "Lt"
  | atMost => "Lte"
  | greater => "Gt"
  | atLeast => "Gte"

def ofName? (name : String) : Option Comparison := all.find? (·.name = name)

def isOrdering (c : Comparison) : Bool := c ≠ equal && c ≠ notEqual

end Comparison

namespace TextPredicate

def all : List TextPredicate :=
  [contains, containsPhrase, containsPrefix, containsRegex, containsFuzzy, startsWith, regex, fuzzy]

def name : TextPredicate → String
  | contains => "Contains"
  | containsPhrase => "ContainsPhrase"
  | containsPrefix => "ContainsPrefix"
  | containsRegex => "ContainsRegex"
  | containsFuzzy => "ContainsFuzzy"
  | startsWith => "Prefix"
  | regex => "Regex"
  | fuzzy => "Fuzzy"

def ofName? (name : String) : Option TextPredicate := all.find? (·.name = name)

def isContains (t : TextPredicate) : Bool := t ≠ startsWith && t ≠ regex && t ≠ fuzzy

end TextPredicate

/-- A predicate as messages name it. -/
def Predicate.shown : Predicate → String
  | compare c => "Cmp(" ++ c.name ++ ")"
  | text t => "Text(" ++ t.name ++ ")"
  | within km => "Geo(WithinDistance(" ++ Decimal.marked.text km ++ "))"

namespace Condition

def equals (key : SchemaId) (value : Value) : Condition := leaf key (.compare .equal) value

end Condition

end GraphStore
