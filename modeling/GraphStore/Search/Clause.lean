import GraphStore.Json
import GraphStore.Search.Condition

/-!
Queries in the dialect of the search backend. A clause on a field tests documents; `all`, `any` and
`not` combine clauses. `Clause.toJson` writes them as the backend reads them.
-/
namespace GraphStore

/-- Where a range lies: on which side of its bound, and whether the bound belongs to it. -/
inductive RangeSide where
  | below | upTo | above | onwards
  deriving DecidableEq, Repr

/-- The clauses that look at one field. -/
inductive FieldClause where
  | term (field : String) (value : Json)
  | range (field : String) (side : RangeSide) (bound : Json)
  /-- All words of a text occur; if `fuzzy`, give or take some letters. -/
  | words (field text : String) (fuzzy : Bool)
  | phrase (field text : String)
  | startsWith (field text : String)
  | regexp (field pattern : String)
  | fuzzy (field text : String)
  | distance (field : String) (kilometres lat lon : Binary64)
  deriving Repr

inductive Clause where
  | everything
  | nothing
  | all (parts : List Clause)
  | any (parts : List Clause)
  | not (part : Clause)
  | field (clause : FieldClause)
  deriving Repr

def RangeSide.word : RangeSide → String
  | below => "lt"
  | upTo => "lte"
  | above => "gt"
  | onwards => "gte"

namespace FieldClause

/-- A record of one field. -/
def one (name : String) (j : Json) : Json := .record [(name, j)]

def matchOptions (text : String) : List (String × Json) :=
  [("query", .string text), ("operator", .string "and")]

def toJson : FieldClause → Json
  | term f v => one "term" (one f v)
  | range f side v => one "range" (one f (one side.word v))
  | words f s false => one "match" (one f (.record (matchOptions s)))
  | words f s true =>
    one "match" (one f (.record (matchOptions s ++ [("fuzziness", .string "AUTO")])))
  | phrase f s => one "match_phrase" (one f (.string s))
  | startsWith f s => one "prefix" (one f (.string s))
  | regexp f s => one "regexp" (one f (.string s))
  | fuzzy f s =>
    one "fuzzy" (one f (.record [("value", .string s), ("fuzziness", .string "AUTO")]))
  | distance f km lat lon =>
    one "geo_distance" (.record [("distance", .string (Decimal.plain.text km ++ "km")),
      (f, .array [.ofFloat lon, .ofFloat lat])])

end FieldClause

namespace Clause

open FieldClause

mutual
def toJson : Clause → Json
  | everything => one "match_all" (.object [])
  | nothing => one "match_none" (.object [])
  | all parts => one "bool" (one "filter" (.array (toJsons parts)))
  | any parts =>
    one "bool" (.record [("should", .array (toJsons parts)), ("minimum_should_match", .int 1)])
  | not part => one "bool" (one "must_not" (.array [toJson part]))
  | field clause => clause.toJson

def toJsons : List Clause → List Json
  | [] => []
  | part :: rest => toJson part :: toJsons rest
end

end Clause

end GraphStore
