import GraphStore.Proofs.Attempt
import GraphStore.Proofs.Search.Lowering

/-!
What a request to a search backend says. Lookups of names leave no trace that a later one could see, so each
leaf of a condition comes out as it does by itself: the first one that is refused decides the fault, and if
none is, the query puts the clauses of the leaves together as the condition does the leaves.
-/
namespace GraphStore

namespace Json

mutual
/-- The worth of a query, given that of the clauses which combine no others. -/
def holds (truth : Json → Bool) : Json → Bool
  | .object [("match_all", .object [])] => true
  | .object [("match_none", .object [])] => false
  | .object [("bool", .object [("filter", .array parts)])] => allHold truth parts
  | .object [("bool", .object [("minimum_should_match", .int 1), ("should", .array parts)])] =>
    someHolds truth parts
  | .object [("bool", .object [("must_not", .array parts)])] => !someHolds truth parts
  | clause => truth clause

def allHold (truth : Json → Bool) : List Json → Bool
  | [] => true
  | part :: rest => holds truth part && allHold truth rest

def someHolds (truth : Json → Bool) : List Json → Bool
  | [] => false
  | part :: rest => holds truth part || someHolds truth rest
end

end Json

namespace Condition

/-- A leaf of a condition. -/
structure Test where
  key : SchemaId
  predicate : Predicate
  value : Value
  deriving DecidableEq, Repr

namespace Test

def condition (test : Test) : Condition := .leaf test.key test.predicate test.value

/-- The test for equality in the stead of another one. -/
def equal (test : Test) : Test := { test with predicate := .compare .equal }

end Test

mutual
/-- The leaves, from left to right. -/
def tests : Condition → List Test
  | and parts => testsOf parts
  | or parts => testsOf parts
  | not part => tests part
  | leaf key predicate value => [⟨key, predicate, value⟩]

def testsOf : List Condition → List Test
  | [] => []
  | part :: rest => tests part ++ testsOf rest
end

mutual
/-- The worth of a condition, given that of its leaves. -/
def worth (leafWorth : Test → Bool) : Condition → Bool
  | and parts => allWorth leafWorth parts
  | or parts => someWorth leafWorth parts
  | not part => !worth leafWorth part
  | leaf key predicate value => leafWorth ⟨key, predicate, value⟩

def allWorth (leafWorth : Test → Bool) : List Condition → Bool
  | [] => true
  | part :: rest => worth leafWorth part && allWorth leafWorth rest

def someWorth (leafWorth : Test → Bool) : List Condition → Bool
  | [] => false
  | part :: rest => worth leafWorth part || someWorth leafWorth rest
end

end Condition

open Condition (Test)

section Clauses

open FieldClause

variable {truth : Json → Bool}

/-- A clause on a field combines no others. -/
theorem FieldClause.holds_toJson (f : FieldClause) : f.toJson.holds truth = truth f.toJson := by
  cases f with
  | words f s fuzzy => cases fuzzy <;> rfl
  | _ => rfl

namespace Clause

theorem holds_all (parts : List Clause) :
    (all parts).toJson.holds truth = Json.allHold truth (toJsons parts) := rfl

/-- The fields of an alternative stand in the order of their names. -/
theorem toJson_any (parts : List Clause) : (any parts).toJson =
    one "bool" (.object [("minimum_should_match", .int 1), ("should", .array (toJsons parts))]) := by
  have sorted : "minimum_should_match" < "should" := by decide
  simp only [toJson, Json.record, List.foldl, Json.insertField, String.reduceEq, sorted, if_true, if_false]

theorem holds_any (parts : List Clause) :
    (any parts).toJson.holds truth = Json.someHolds truth (toJsons parts) := by
  rw [toJson_any]
  rfl

theorem holds_not (part : Clause) : (not part).toJson.holds truth = !part.toJson.holds truth := by
  show (!(part.toJson.holds truth || false)) = _
  rw [Bool.or_false]

end Clause

end Clauses

namespace FieldSpace

variable {types : Types} {i : MixedIndex}

/-- All that lookups of the names of an index see of what is shared. -/
def view (types : Types) (i : MixedIndex) (s : FieldSpace) : Except IndexFault FieldNames × DefaultFields :=
  ((names types i s).1, s.defaults)

/-- A lookup finds again what an earlier one found. -/
theorem through_names : Attempt.Through (view types i) (names types i) := by
  refine fun s => ⟨?_, fun s' seen => (Prod.mk.inj seen).1⟩
  rw [names, namesMeanwhile]
  cases looked : s.cache.start i with
  | inl names => rfl
  | inr l =>
    have opened : l = ⟨i, s.cache.generation⟩ := by
      rw [FieldCache.start] at looked
      split at looked
      · cases looked
      · exact (Sum.inr.inj looked).symm
    subst opened
    simp only [finish, id, ite_self]
    cases made : FieldNames.ofIndex types s.defaults i with
    | error fault => rfl
    | ok found =>
      -- what the lookup leaves in the cache is what the next one starts with
      have cached : (s.cache.finish ⟨i, s.cache.generation⟩ found).start i = .inl found := by
        simp [FieldCache.finish, FieldCache.start, KeyMap.get?_insert]
      have again : (names types i s).1 = .ok found := by
        simp only [names, namesMeanwhile, looked, finish, id, ite_self, made]
      rw [view, view, again]
      simp only [names, namesMeanwhile, cached]

theorem through_resolve (key : SchemaId) : Attempt.Through (view types i) (resolve types i key) := by
  refine through_names.bind fun names => ?_
  split
  · exact .pure _
  · exact .lift (.error _)

end FieldSpace

namespace Translator

variable {t : Translator} {i : MixedIndex} {s : FieldSpace}

section Composed

variable {P : ∀ {α : Type}, Attempt FieldSpace IndexFault α → Prop}

mutual

/-- A condition is lowered by lookups of the fields of its leaves, and nothing else touches what is shared. -/
theorem lower_composed (composes : Attempt.Composes P) (field : ∀ key, P (t.field i key)) :
    ∀ condition : Condition, P (t.lower i condition)
  | .and [] => by
    rw [lower]
    exact composes.pure _
  | .or [] => by
    rw [lower]
    exact composes.pure _
  | .and (part :: rest) => by
    rw [lower]
    exact composes.bind (lowerAll_composed composes field (part :: rest)) fun _ => composes.pure _
  | .or (part :: rest) => by
    rw [lower]
    exact composes.bind (lowerAll_composed composes field (part :: rest)) fun _ => composes.pure _
  | .not part => by
    rw [lower]
    exact composes.bind (lower_composed composes field part) fun _ => composes.pure _
  | .leaf key p v => by
    rw [lower]
    exact composes.bind (field key) fun _ => composes.lift _

theorem lowerAll_composed (composes : Attempt.Composes P) (field : ∀ key, P (t.field i key)) :
    ∀ parts : List Condition, P (t.lowerAll i parts)
  | [] => by
    rw [lowerAll]
    exact composes.pure _
  | part :: rest => by
    rw [lowerAll]
    exact composes.bind (lower_composed composes field part) fun _ =>
      composes.bind (lowerAll_composed composes field rest) fun _ => composes.pure _

end

theorem sortClauses_composed (composes : Attempt.Composes P) (field : ∀ key, P (t.field i key))
    (order : List OrderBy) : P (t.sortClauses i order) := by
  induction order with
  | nil => exact composes.pure []
  | cons o rest ih =>
    refine composes.bind (field o.key) fun f => composes.bind (composes.lift _) fun clause => ?_
    exact composes.bind ih fun _ => composes.pure _

theorem request_composed (composes : Attempt.Composes P) (field : ∀ key, P (t.field i key))
    (condition : Condition) (order : List OrderBy) : P (t.request i condition order) :=
  composes.bind (lower_composed composes field condition) fun _ =>
    composes.bind (sortClauses_composed composes field order) fun _ => composes.pure _

end Composed

theorem through_field (key : SchemaId) : (t.field i key).Through (FieldSpace.view t.types i) := by
  refine (FieldSpace.through_resolve key).bind fun name => .get_bind (fun s => ?_) fun s s' seen => ?_
  · exact (Attempt.Through.lift _).bind fun _ => .pure _
  · rw [(Prod.mk.inj seen).2]

theorem through_lower (condition : Condition) : (t.lower i condition).Through (FieldSpace.view t.types i) :=
  lower_composed Attempt.Through.composes through_field condition

theorem through_lowerAll (parts : List Condition) :
    (t.lowerAll i parts).Through (FieldSpace.view t.types i) :=
  lowerAll_composed Attempt.Through.composes through_field parts

/-- The request that sends a query, its hits in any order. -/
def unsorted (i : MixedIndex) (query : Clause) : SearchRequest := ⟨i.store, i.name, query, []⟩

theorem request_result (condition : Condition) :
    (t.request i condition [] s).1 = (t.lower i condition s).1.map (unsorted i) := by
  have sorted (query : Clause) : (do return ⟨i.store, i.name, query, ← t.sortClauses i []⟩ :
      Attempt FieldSpace IndexFault SearchRequest).Through (FieldSpace.view t.types i) := .pure _
  exact (through_lower condition).bind_result sorted s

theorem lower_all_result (part : Condition) (rest : List Condition) :
    (t.lower i (.and (part :: rest)) s).1 = (t.lowerAll i (part :: rest) s).1.map .all := by
  rw [lower]
  exact (through_lowerAll (part :: rest)).bind_result (fun _ => .pure _) s

theorem lower_any_result (part : Condition) (rest : List Condition) :
    (t.lower i (.or (part :: rest)) s).1 = (t.lowerAll i (part :: rest) s).1.map .any := by
  rw [lower]
  exact (through_lowerAll (part :: rest)).bind_result (fun _ => .pure _) s

theorem lower_not_result (part : Condition) :
    (t.lower i (.not part) s).1 = (t.lower i part s).1.map .not := by
  rw [lower]
  exact (through_lower part).bind_result (fun _ => .pure _) s

theorem lower_leaf_result (key : SchemaId) (p : Predicate) (v : Value) :
    (t.lower i (.leaf key p v) s).1 = (t.field i key s).1 >>= fun f => f.leaf t.settings.stringSuffix p v := by
  rw [lower]
  exact (through_field key).bind_result (fun _ => .lift _) s

theorem lowerAll_cons_result (part : Condition) (rest : List Condition) :
    (t.lowerAll i (part :: rest) s).1 =
      (t.lower i part s).1 >>= fun clause => (t.lowerAll i rest s).1.map (clause :: ·) := by
  rw [lowerAll, (through_lower part).bind_result (fun _ => (through_lowerAll rest).bind fun _ => .pure _) s]
  congr 1
  funext clause
  exact (through_lowerAll rest).bind_result (fun _ => .pure _) s

/-- What becomes of a leaf by itself. -/
def alone (t : Translator) (i : MixedIndex) (s : FieldSpace) (test : Test) : Except IndexFault SearchRequest :=
  (t.request i test.condition [] s).1

mutual

/-- The fault of a condition is that of the first leaf that has one. -/
theorem fault_lower : ∀ condition : Condition,
    faultOf (t.lower i condition s).1 = condition.tests.findSome? fun test => faultOf (t.alone i s test)
  | .and [] => rfl
  | .or [] => rfl
  | .and (part :: rest) => by
    rw [lower_all_result, faultOf_map, fault_lowerAll, Condition.tests]
  | .or (part :: rest) => by
    rw [lower_any_result, faultOf_map, fault_lowerAll, Condition.tests]
  | .not part => by
    rw [lower_not_result, faultOf_map, fault_lower part, Condition.tests]
  | .leaf key p v => by
    simp only [Condition.tests, List.findSome?_singleton, alone, Test.condition, request_result, faultOf_map]

theorem fault_lowerAll : ∀ parts : List Condition, faultOf (t.lowerAll i parts s).1 =
    (Condition.testsOf parts).findSome? fun test => faultOf (t.alone i s test)
  | [] => rfl
  | part :: rest => by
    rw [lowerAll_cons_result, Condition.testsOf, List.findSome?_append, ← fault_lower part,
      ← fault_lowerAll rest]
    cases (t.lower i part s).1 with
    | error fault => rfl
    | ok clause => exact faultOf_map ..

end

/-- The worth of a clause that a leaf is lowered to. -/
def clauseWorth (truth : Json → Bool) : Except IndexFault SearchRequest → Bool
  | .ok r => truth r.query.toJson
  | .error _ => false

/-- The worth of a leaf: that of its own clause, or for a `≠` the opposite of what the `=` is worth. -/
def testWorth (t : Translator) (i : MixedIndex) (s : FieldSpace) (truth : Json → Bool) (test : Test) : Bool :=
  if test.predicate = .compare .notEqual then !clauseWorth truth (t.alone i s test.equal)
  else clauseWorth truth (t.alone i s test)

theorem alone_eq (test : Test) : t.alone i s test = ((t.field i test.key s).1 >>= fun f =>
    f.leaf t.settings.stringSuffix test.predicate test.value).map (unsorted i) := by
  rw [alone, request_result, Test.condition, lower_leaf_result]

/-- A `≠` is taken just if the `=` is. -/
theorem alone_equal_ok_iff {test : Test} (opposite : test.predicate = .compare .notEqual) :
    (∃ r, t.alone i s test.equal = .ok r) ↔ ∃ r, t.alone i s test = .ok r := by
  simp only [alone_eq, Test.equal, opposite]
  cases (t.field i test.key s).1 with
  | error fault => exact ⟨nofun, nofun⟩
  | ok f =>
    simp only [map_ok_iff]
    constructor
    · rintro ⟨r, clause, taken, -⟩
      obtain ⟨g, rfl⟩ := QueryField.leaf_field (p := .compare .equal) (by decide) taken
      exact ⟨_, _, QueryField.leaf_notEqual_iff.2 ⟨g, taken, rfl⟩, rfl⟩
    · rintro ⟨r, clause, taken, -⟩
      obtain ⟨g, equal, -⟩ := QueryField.leaf_notEqual_iff.1 taken
      exact ⟨_, _, equal, rfl⟩

/-- A leaf that is taken is worth what its test is. -/
theorem lower_leaf_worth {key : SchemaId} {p : Predicate} {v : Value} {clause : Clause}
    {truth : Json → Bool}
    (taken : (t.lower i (.leaf key p v) s).1 = .ok clause) :
    clause.toJson.holds truth = t.testWorth i s truth ⟨key, p, v⟩ := by
  rw [lower_leaf_result] at taken
  obtain ⟨f, named, taken⟩ := bind_ok_iff.1 taken
  by_cases opposite : p = .compare .notEqual
  · subst opposite
    obtain ⟨g, equal, rfl⟩ := QueryField.leaf_notEqual_iff.1 taken
    have made : t.alone i s ⟨key, .compare .equal, v⟩ = .ok (unsorted i (.field g)) := by
      rw [alone_eq, named]
      exact map_ok_iff.2 ⟨_, equal, rfl⟩
    rw [Clause.holds_not, testWorth, if_pos rfl, Test.equal, made]
    exact congrArg _ g.holds_toJson
  · obtain ⟨g, rfl⟩ := QueryField.leaf_field opposite taken
    have made : t.alone i s ⟨key, p, v⟩ = .ok (unsorted i (.field g)) := by
      rw [alone_eq, named]
      exact map_ok_iff.2 ⟨_, taken, rfl⟩
    rw [testWorth, if_neg opposite, made]
    exact g.holds_toJson

section Worth

variable {truth : Json → Bool}

mutual

/-- The query is worth what the condition is. -/
theorem lower_worth : ∀ {condition : Condition} {clause : Clause}, (t.lower i condition s).1 = .ok clause →
    clause.toJson.holds truth = condition.worth (t.testWorth i s truth)
  | .and [], _, taken => by
    obtain rfl := Except.ok.inj taken
    rfl
  | .or [], _, taken => by
    obtain rfl := Except.ok.inj taken
    rfl
  | .and (part :: rest), _, taken => by
    rw [lower_all_result] at taken
    obtain ⟨clauses, made, rfl⟩ := map_ok_iff.1 taken
    rw [Clause.holds_all, Condition.worth]
    exact (lowerAll_worth made).1
  | .or (part :: rest), _, taken => by
    rw [lower_any_result] at taken
    obtain ⟨clauses, made, rfl⟩ := map_ok_iff.1 taken
    rw [Clause.holds_any, Condition.worth]
    exact (lowerAll_worth made).2
  | .not part, _, taken => by
    rw [lower_not_result] at taken
    obtain ⟨clause, made, rfl⟩ := map_ok_iff.1 taken
    rw [Clause.holds_not, Condition.worth, lower_worth made]
  | .leaf key p v, _, taken => lower_leaf_worth taken

theorem lowerAll_worth : ∀ {parts : List Condition} {clauses : List Clause},
    (t.lowerAll i parts s).1 = .ok clauses →
      Json.allHold truth (Clause.toJsons clauses) = Condition.allWorth (t.testWorth i s truth) parts ∧
        Json.someHolds truth (Clause.toJsons clauses) = Condition.someWorth (t.testWorth i s truth) parts
  | [], _, taken => by
    obtain rfl := Except.ok.inj taken
    exact ⟨rfl, rfl⟩
  | part :: rest, _, taken => by
    rw [lowerAll_cons_result] at taken
    obtain ⟨clause, first, taken⟩ := bind_ok_iff.1 taken
    obtain ⟨clauses, others, rfl⟩ := map_ok_iff.1 taken
    obtain ⟨all, any⟩ := lowerAll_worth others
    rw [Clause.toJsons, Json.allHold, Json.someHolds, Condition.allWorth, Condition.someWorth,
      lower_worth first, all, any]
    exact ⟨rfl, rfl⟩

end

end Worth

/-- A request says just what its condition does. -/
structure Faithful (t : Translator) (i : MixedIndex) (s : FieldSpace) (condition : Condition) : Prop where
  accepted : (∃ r, (t.request i condition [] s).1 = .ok r) ↔
    ∀ test ∈ condition.tests, ∃ r, t.alone i s test = .ok r
  /-- The fault is that of the leftmost leaf that is refused. -/
  refused : ∀ fault, (t.request i condition [] s).1 = .error fault ↔
    ∃ before test after, condition.tests = before ++ test :: after ∧ t.alone i s test = .error fault ∧
      ∀ earlier ∈ before, ∃ r, t.alone i s earlier = .ok r
  /-- Where a `≠` is taken, the `=` that it is the opposite of is too. -/
  opposed : ∀ test ∈ condition.tests, test.predicate = .compare .notEqual →
    ((∃ r, t.alone i s test.equal = .ok r) ↔ ∃ r, t.alone i s test = .ok r)
  meaning : ∀ r, (t.request i condition [] s).1 = .ok r → ∀ truth,
    r.query.toJson.holds truth = condition.worth (t.testWorth i s truth)

theorem fault_request (condition : Condition) : faultOf (t.request i condition [] s).1 =
    condition.tests.findSome? fun test => faultOf (t.alone i s test) := by
  rw [request_result, faultOf_map, fault_lower]

/-- Every request is faithful to its condition, whatever is known of fields when it is made. -/
theorem request_faithful (t : Translator) (i : MixedIndex) (s : FieldSpace) (condition : Condition) :
    t.Faithful i s condition where
  accepted := by
    rw [← faultOf_eq_none_iff, fault_request, List.findSome?_eq_none_iff]
    simp only [faultOf_eq_none_iff]
  refused fault := by
    rw [← faultOf_eq_some_iff, fault_request, List.findSome?_eq_some_iff]
    simp only [faultOf_eq_none_iff, faultOf_eq_some_iff]
  opposed test _ opposite := alone_equal_ok_iff opposite
  meaning r made truth := by
    rw [request_result] at made
    obtain ⟨query, taken, rfl⟩ := map_ok_iff.1 made
    exact lower_worth taken

end Translator

end GraphStore
