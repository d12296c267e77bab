import GraphStore.Proofs.Search.Meaning
import Mathlib.Data.List.Forall2

/-!
What a request asks of its fields. Every leaf of a condition becomes one clause on one field, in the order of the
leaves, and every order a clause to sort by. The mapping of the field decides which strings it can be asked for:
predicates on the whole string go to the field that keeps it as it stands, those on words to analyzed text, and
where there is no such field the request is refused.
-/
namespace GraphStore

/-- The field that a clause looks at. -/
def FieldClause.name : FieldClause → String
  | term f _ | range f _ _ | words f _ _ | phrase f _ | startsWith f _ | regexp f _ | fuzzy f _
  | distance f _ _ _ => f

/-- The clause is sent as a question about one field. -/
def FieldClause.Asks (g : FieldClause) (field : String) : Prop :=
  ∃ kind body, g.toJson = .object [(kind, .object [(field, body)])]

namespace Clause

mutual
/-- The clauses on fields, from left to right. -/
def fieldClauses : Clause → List FieldClause
  | everything | nothing => []
  | all parts | any parts => fieldClausesOf parts
  | not part => fieldClauses part
  | field g => [g]

def fieldClausesOf : List Clause → List FieldClause
  | [] => []
  | part :: rest => fieldClauses part ++ fieldClausesOf rest
end

end Clause

namespace QueryField

variable {f : QueryField} {suffix : String} {p : Predicate} {v : Value} {clause : Clause}

/-- Every leaf becomes one clause on a field, or the negation of one. -/
theorem Lowers.fieldClauses (lowers : Lowers f suffix p v clause) : ∃ g, clause.fieldClauses = [g] := by
  cases lowers with
  | @whole c | @ordering c | @worth c => cases c <;> exact ⟨_, rfl⟩
  | words | pattern | within => exact ⟨_, rfl⟩

theorem Lowers.hasName {g : FieldClause} (lowers : f.Lowers suffix p v clause) (one : clause.fieldClauses = [g]) :
    f.HasName suffix g.name := by
  obtain ⟨c, name, -, has, rfl⟩ | ⟨q, s, name, -, has, rfl, -⟩ | ⟨km, lat, lon, -, -, -, rfl⟩ := lowers.form
  · cases c <;> exact List.singleton_inj.1 one ▸ has
  · cases q <;> exact List.singleton_inj.1 one ▸ has
  · exact .inl (List.singleton_inj.1 one ▸ rfl)

end QueryField

/-- A leaf asks for the whole of a string: whether it is the one given, or of the form of a pattern. -/
def Condition.Test.AsksWhole (test : Condition.Test) : Prop :=
  (∃ c s, test.predicate = .compare c ∧ c.isOrdering = false ∧ test.value = .string s) ∨
    ∃ t, test.predicate = .text t ∧ t.isContains = false

/-- A leaf asks for words of a text. -/
def Condition.Test.AsksWords (test : Condition.Test) : Prop :=
  ∃ t, test.predicate = .text t ∧ t.isContains = true

namespace QueryField

variable {f : QueryField} {suffix : String} {p : Predicate} {v : Value} {clause : Clause}

/-- What may stand in a query for a leaf. -/
structure LeafGate (f : QueryField) (suffix : String) (test : Condition.Test) (g : FieldClause) : Prop where
  whole : test.AsksWhole → f.mapping.isExact = true ∧ g.Asks (f.wholeName suffix)
  words : test.AsksWords → f.mapping.isAnalyzed = true ∧ g.Asks f.name
  /-- What is no string is compared on the field itself, whatever its mapping. -/
  worth : ∀ c, test.predicate = .compare c → test.value.dataType ≠ .string → g.Asks f.name

/-- What may stand in a query for an order. -/
structure SortGate (f : QueryField) (suffix : String) (o : OrderBy) (clause : SortClause) : Prop where
  sortable : f.mapping ≠ .text
  whole : f.mapping.isExact = true → clause.field = f.wholeName suffix
  order : clause.order = o.order

theorem asks_compare {name : String} {c : Comparison} {j : Json} {g : FieldClause}
    (one : (compare name c j).fieldClauses = [g]) : g.Asks name := by
  cases c <;> exact List.singleton_inj.1 one ▸ ⟨_, _, rfl⟩

theorem asks_textClause (name : String) (p : TextPredicate) (s : String) : (textClause name p s).Asks name := by
  cases p <;> exact ⟨_, _, rfl⟩

/-- A clause for a leaf has passed the gate of its field. -/
theorem Lowers.leafGate {test : Condition.Test} {g : FieldClause}
    (lowers : f.Lowers suffix test.predicate test.value clause) (one : clause.fieldClauses = [g]) :
    f.LeafGate suffix test g := by
  obtain ⟨key, p, v⟩ := test
  cases lowers with
  | whole exact =>
    refine ⟨fun _ => ⟨exact, asks_compare one⟩, ?_, fun _ _ other => absurd rfl other⟩
    rintro ⟨_, same, _⟩
    cases same
  | ordering lacks order =>
    refine ⟨?_, ?_, fun _ _ other => absurd rfl other⟩
    · rintro (⟨c, _, same, unordered, _⟩ | ⟨_, same, _⟩)
      · obtain rfl := Predicate.compare.inj same
        exact absurd (order.symm.trans unordered) (by decide)
      · cases same
    · rintro ⟨_, same, _⟩
      cases same
  | worth other taken =>
    refine ⟨?_, ?_, fun _ _ _ => asks_compare one⟩
    · rintro (⟨_, s, _, _, string⟩ | ⟨_, same, _⟩)
      · exact absurd (congrArg Value.dataType string) other
      · cases same
    · rintro ⟨_, same, _⟩
      cases same
  | words contains analyzed =>
    obtain rfl := List.singleton_inj.1 one
    refine ⟨?_, fun _ => ⟨analyzed, asks_textClause ..⟩, fun _ _ other => absurd rfl other⟩
    rintro (⟨_, _, same, _⟩ | ⟨t, same, pattern⟩)
    · cases same
    · obtain rfl := Predicate.text.inj same
      exact absurd (contains.symm.trans pattern) (by decide)
  | pattern pattern exact =>
    obtain rfl := List.singleton_inj.1 one
    refine ⟨fun _ => ⟨exact, asks_textClause ..⟩, ?_, fun _ _ other => absurd rfl other⟩
    rintro ⟨t, same, contains⟩
    obtain rfl := Predicate.text.inj same
    exact absurd (contains.symm.trans pattern) (by decide)
  | within =>
    refine ⟨?_, ?_, nofun⟩
    · rintro (⟨_, _, same, _⟩ | ⟨_, same, _⟩) <;> cases same
    · rintro ⟨_, same, _⟩
      cases same

theorem sortGate {o : OrderBy} {clause : SortClause} (made : f.sort suffix o.order = .ok clause) :
    f.SortGate suffix o clause := by
  rw [QueryField.sort] at made
  cases m : f.mapping with
  | text => simp only [m, reduceCtorEq] at made
  | _ =>
    simp only [m, Except.ok.injEq] at made
    subst made
    exact ⟨by simp [m], by simp [m, wholeName, Mapping.isExact], rfl⟩

theorem sort_hasName {order : SortOrder} {clause : SortClause} (made : f.sort suffix order = .ok clause) :
    f.HasName suffix clause.field := by
  rw [QueryField.sort] at made
  split at made
  · cases made
  · next both => exact .inr ⟨both, Except.ok.inj made ▸ rfl⟩
  · exact .inl (Except.ok.inj made ▸ rfl)
  · exact .inl (Except.ok.inj made ▸ rfl)

/-- The field has no form that could answer the leaf. -/
def Forbids (f : QueryField) (test : Condition.Test) : Prop :=
  test.AsksWhole ∧ f.mapping.isExact = false ∨ test.AsksWords ∧ f.mapping.isAnalyzed = false

theorem Forbids.not_leafGate {test : Condition.Test} {g : FieldClause} (forbids : f.Forbids test) :
    ¬f.LeafGate suffix test g := by
  rintro ⟨whole, words, -⟩
  rcases forbids with ⟨asks, lacks⟩ | ⟨asks, lacks⟩
  · exact absurd (lacks.symm.trans (whole asks).1) (by decide)
  · exact absurd (lacks.symm.trans (words asks).1) (by decide)

/-- Such a leaf on a string is refused by the gate, and no other check comes before it. -/
theorem Forbids.leaf_error {key : SchemaId} {s : String} (forbids : f.Forbids ⟨key, p, .string s⟩) :
    f.leaf suffix p (.string s) = .error (.schemaViolation (.predicateNotAllowed p f.mapping f.name)) := by
  rcases forbids with ⟨⟨c, _, same, unordered, _⟩ | ⟨t, same, pattern⟩, lacks⟩ | ⟨⟨t, same, contains⟩, lacks⟩ <;>
    obtain rfl : p = _ := same
  · simp only [QueryField.leaf, stringLeaf, exactName?_eq_none_iff.2 lacks, unordered, Bool.false_eq_true, if_false,
      notAllowed]
  · simp only [QueryField.leaf, stringLeaf, exactName?_eq_none_iff.2 lacks, pattern, Bool.false_eq_true, if_false,
      notAllowed]
  · simp only [QueryField.leaf, stringLeaf, contains, lacks, Bool.false_eq_true, if_true, if_false, notAllowed]

end QueryField

namespace Translator

open QueryField Condition

variable {t : Translator} {i : MixedIndex} {s : FieldSpace} {condition : Condition} {order : List OrderBy}

theorem exists_of_mem_left {α β : Type} {R : α → β → Prop} {l : List α} {l' : List β} {a : α}
    (pairs : List.Forall₂ R l l') (member : a ∈ l) : ∃ b, R a b := by
  induction pairs with
  | nil => cases member
  | cons first _ ih =>
    rcases List.mem_cons.1 member with rfl | later
    · exact ⟨_, first⟩
    · exact ih later

/-- A key as an index takes it for a query. -/
structure Knows (t : Translator) (i : MixedIndex) (s : FieldSpace) (key : SchemaId) (f : QueryField) : Prop where
  named : (FieldSpace.resolve t.types i key s).1 = .ok f.name
  declared : ∀ g, i.field? key = some g → g.status.isMaintained = true ∧ f.mapping = g.mapping
  undeclared : i.field? key = none → f.mapping = ((s.defaults.field? key).map (·.mapping)).getD .default

theorem mapping_ok_iff {defaults : DefaultFields} {key : SchemaId} {name : String} {m : Mapping} :
    mapping defaults i key name = .ok m ↔
      (∀ g, i.field? key = some g → g.status.isMaintained = true ∧ m = g.mapping) ∧
        (i.field? key = none → m = ((defaults.field? key).map (·.mapping)).getD .default) := by
  rw [mapping]
  cases i.field? key with
  | none =>
    constructor
    · intro h
      exact ⟨nofun, fun _ => (Except.ok.inj h).symm⟩
    · rintro ⟨-, default⟩
      rw [default rfl]
  | some g =>
    by_cases kept : g.status.isMaintained = true
    · simp only [kept, if_true, Except.ok.injEq, Option.some.injEq, reduceCtorEq, false_implies, and_true]
      constructor
      · rintro rfl g' rfl
        exact ⟨kept, rfl⟩
      · intro h
        exact (h g rfl).2.symm
    · simp [kept]

/-- What a lookup of a field says, by the name of the key and its mapping. -/
theorem field_result (key : SchemaId) : (t.field i key s).1 = (FieldSpace.resolve t.types i key s).1 >>= fun name =>
    (mapping s.defaults i key name).map (⟨name, ·⟩) := by
  rw [field, (FieldSpace.through_resolve key).bind_result (fun name => .get_bind
    (fun _ => (Attempt.Through.lift _).bind fun _ => .pure _) fun s s' seen => by rw [(Prod.mk.inj seen).2]) s]
  congr 1
  funext name
  show ((do return (⟨name, ← Attempt.lift (mapping s.defaults i key name)⟩ : QueryField) :
    Attempt FieldSpace IndexFault QueryField) s).1 = _
  rw [Attempt.map_run]
  rfl

theorem field_ok_iff {key : SchemaId} {f : QueryField} : (t.field i key s).1 = .ok f ↔ t.Knows i s key f := by
  rw [field_result, bind_ok_iff]
  constructor
  · rintro ⟨name, named, found⟩
    obtain ⟨m, mapped, rfl⟩ := map_ok_iff.1 found
    obtain ⟨declared, undeclared⟩ := mapping_ok_iff.1 mapped
    exact ⟨named, declared, undeclared⟩
  · intro knows
    exact ⟨f.name, knows.named, map_ok_iff.2 ⟨f.mapping, mapping_ok_iff.2 ⟨knows.declared, knows.undeclared⟩, rfl⟩⟩

/-- The clause that a leaf becomes, on the field that its key has. -/
def Becomes (t : Translator) (i : MixedIndex) (s : FieldSpace) (test : Test) (g : FieldClause) : Prop :=
  ∃ f clause, t.Knows i s test.key f ∧ Lowers f t.settings.stringSuffix test.predicate test.value clause ∧
    clause.fieldClauses = [g]

mutual

theorem lower_becomes : ∀ {condition : Condition} {clause : Clause}, (t.lower i condition s).1 = .ok clause →
    List.Forall₂ (t.Becomes i s) condition.tests clause.fieldClauses
  | .and [], _, taken => by
    obtain rfl := Except.ok.inj taken
    exact .nil
  | .or [], _, taken => by
    obtain rfl := Except.ok.inj taken
    exact .nil
  | .and (part :: rest), _, taken => by
    rw [lower_all_result] at taken
    obtain ⟨clauses, made, rfl⟩ := map_ok_iff.1 taken
    exact lowerAll_becomes made
  | .or (part :: rest), _, taken => by
    rw [lower_any_result] at taken
    obtain ⟨clauses, made, rfl⟩ := map_ok_iff.1 taken
    exact lowerAll_becomes made
  | .not part, _, taken => by
    rw [lower_not_result] at taken
    obtain ⟨clause, made, rfl⟩ := map_ok_iff.1 taken
    rw [Condition.tests, Clause.fieldClauses]
    exact lower_becomes made
  | .leaf key p v, _, taken => by
    rw [lower_leaf_result] at taken
    obtain ⟨f, found, taken⟩ := bind_ok_iff.1 taken
    have lowers := leaf_ok_iff.1 taken
    obtain ⟨g, one⟩ := lowers.fieldClauses
    rw [Condition.tests, one]
    exact .cons ⟨f, _, field_ok_iff.1 found, lowers, one⟩ .nil

theorem lowerAll_becomes : ∀ {parts : List Condition} {clauses : List Clause},
    (t.lowerAll i parts s).1 = .ok clauses →
      List.Forall₂ (t.Becomes i s) (testsOf parts) (Clause.fieldClausesOf clauses)
  | [], _, taken => by
    obtain rfl := Except.ok.inj taken
    exact .nil
  | part :: rest, _, taken => by
    rw [lowerAll_cons_result] at taken
    obtain ⟨clause, first, taken⟩ := bind_ok_iff.1 taken
    obtain ⟨clauses, others, rfl⟩ := map_ok_iff.1 taken
    exact List.rel_append (lower_becomes first) (lowerAll_becomes others)

end

/-- The clause that an order becomes. -/
def Sorts (t : Translator) (i : MixedIndex) (s : FieldSpace) (o : OrderBy) (clause : SortClause) : Prop :=
  ∃ f, t.Knows i s o.key f ∧ f.sort t.settings.stringSuffix o.order = .ok clause

theorem through_sortClauses (order : List OrderBy) :
    (t.sortClauses i order).Through (FieldSpace.view t.types i) :=
  sortClauses_composed Attempt.Through.composes through_field order

theorem sortClauses_sorts {clauses : List SortClause} (made : (t.sortClauses i order s).1 = .ok clauses) :
    List.Forall₂ (t.Sorts i s) order clauses := by
  induction order generalizing clauses with
  | nil =>
    obtain rfl := Except.ok.inj made
    exact .nil
  | cons o rest ih =>
    have rest' (clause : SortClause) : (do return clause :: (← t.sortClauses i rest) :
        Attempt FieldSpace IndexFault (List SortClause)).Through (FieldSpace.view t.types i) :=
      (through_sortClauses rest).bind fun _ => .pure _
    rw [sortClauses, (through_field o.key).bind_result
      (fun f => (Attempt.Through.lift _).bind rest') s] at made
    obtain ⟨f, found, made⟩ := bind_ok_iff.1 made
    rw [(Attempt.Through.lift _).bind_result rest' s] at made
    obtain ⟨clause, first, made⟩ := bind_ok_iff.1 made
    rw [Attempt.map_run] at made
    obtain ⟨others, later, rfl⟩ := map_ok_iff.1 made
    exact .cons ⟨f, field_ok_iff.1 found, first⟩ (ih later)

/-- A request answers its condition leaf by leaf, and its order clause by clause. -/
theorem request_ok {r : SearchRequest} (made : (t.request i condition order s).1 = .ok r) :
    List.Forall₂ (t.Becomes i s) condition.tests r.query.fieldClauses ∧
      List.Forall₂ (t.Sorts i s) order r.sort := by
  have rest (query : Clause) : (do return (⟨i.store, i.name, query, ← t.sortClauses i order⟩ : SearchRequest) :
      Attempt FieldSpace IndexFault SearchRequest).Through (FieldSpace.view t.types i) :=
    (through_sortClauses order).bind fun _ => .pure _
  rw [request, (through_lower condition).bind_result rest s] at made
  obtain ⟨query, lowered, made⟩ := bind_ok_iff.1 made
  rw [Attempt.map_run] at made
  obtain ⟨clauses, sorted, rfl⟩ := map_ok_iff.1 made
  exact ⟨lower_becomes lowered, sortClauses_sorts sorted⟩

theorem Knows.unique {key : SchemaId} {f g : QueryField} (one : t.Knows i s key f) (other : t.Knows i s key g) :
    f = g := Except.ok.inj ((field_ok_iff.2 one).symm.trans (field_ok_iff.2 other))

/-- What the mappings of the fields of an index let a request ask of them. -/
structure Gated (t : Translator) (i : MixedIndex) (s : FieldSpace) (condition : Condition)
    (order : List OrderBy) : Prop where
  leaves : ∀ r, (t.request i condition order s).1 = .ok r →
    List.Forall₂ (fun test g => ∃ f, t.Knows i s test.key f ∧ f.LeafGate t.settings.stringSuffix test g)
      condition.tests r.query.fieldClauses
  sorts : ∀ r, (t.request i condition order s).1 = .ok r →
    List.Forall₂ (fun o clause => ∃ f, t.Knows i s o.key f ∧ f.SortGate t.settings.stringSuffix o clause)
      order r.sort
  /-- One leaf that is forbidden, at any depth, is enough for a refusal. -/
  refused : ∀ test ∈ condition.tests, ∀ f, t.Knows i s test.key f → f.Forbids test →
    ∃ fault, (t.request i condition order s).1 = .error fault
  unsortable : ∀ o ∈ order, ∀ f, t.Knows i s o.key f → f.mapping = .text →
    ∃ fault, (t.request i condition order s).1 = .error fault
  /-- By itself a forbidden leaf on a string is refused for the mapping. -/
  reason : ∀ key p string f, t.Knows i s key f → f.Forbids ⟨key, p, .string string⟩ →
    t.alone i s ⟨key, p, .string string⟩ =
      .error (.schemaViolation (.predicateNotAllowed p f.mapping f.name))

/-- No request gets around the mapping of a field: what it may not ask of the field it does not ask at all. -/
theorem request_gated (t : Translator) (i : MixedIndex) (s : FieldSpace) (condition : Condition)
    (order : List OrderBy) : t.Gated i s condition order where
  leaves r made := (request_ok made).1.imp fun _ _ ⟨f, _, knows, lowers, one⟩ => ⟨f, knows, lowers.leafGate one⟩
  sorts r made := (request_ok made).2.imp fun _ _ ⟨f, knows, sorted⟩ => ⟨f, knows, sortGate sorted⟩
  refused test member f knows forbids := by
    cases made : (t.request i condition order s).1 with
    | error fault => exact ⟨fault, rfl⟩
    | ok r =>
      obtain ⟨g, f', clause, knows', lowers, one⟩ := exists_of_mem_left (request_ok made).1 member
      obtain rfl := knows.unique knows'
      exact absurd (lowers.leafGate one) forbids.not_leafGate
  unsortable o member f knows text := by
    cases made : (t.request i condition order s).1 with
    | error fault => exact ⟨fault, rfl⟩
    | ok r =>
      obtain ⟨clause, f', knows', sorted⟩ := exists_of_mem_left (request_ok made).2 member
      obtain rfl := knows.unique knows'
      exact absurd text (sortGate sorted).sortable
  reason key p string f knows forbids := by
    rw [alone_eq, field_ok_iff.2 knows]
    exact congrArg (·.map (unsorted i)) forbids.leaf_error

/-- A key of strings that are kept as analyzed text alone. -/
def bio : RelationType := .propertyKey (.ofNat 20) "bio" .string

def profiles : MixedIndex :=
  ⟨.ofNat 200, "people", "es", .vertex, [⟨bio.id, .enabled, .text, none⟩], none, .managed⟩

def profileSearch : Translator := ⟨.overlay (.ofList [(bio.id, bio)]) .empty, .default⟩

def openProfiles : MixedIndex := { profiles with fields := [⟨bio.id, .enabled, .default, none⟩] }

/-- The key holds strings and its field keeps none as it stands, but it can be asked for a number all the same:
how a number is compared goes by the number. Where the mapping is left open it can be sorted by as well. -/
theorem request_past_mapping : profileSearch.types.keyType bio.id = .ok .string ∧
    (∃ r f, (profileSearch.request profiles (.equals bio.id (.int 3)) [] (.new .empty)).1 = .ok r ∧
      r.query.toJson = .object [("term", .object [("bio", .int 3)])] ∧
      profileSearch.Knows profiles (.new .empty) bio.id f ∧ f.mapping.isExact = false) ∧
    ∃ r f, (profileSearch.request openProfiles (.and []) [⟨bio.id, .ascending⟩] (.new .empty)).1 = .ok r ∧
      r.sort = [⟨"bio", .ascending⟩] ∧
      profileSearch.Knows openProfiles (.new .empty) bio.id f ∧ f.mapping.isExact = false :=
  ⟨rfl, ⟨_, ⟨"bio", .text⟩, rfl, rfl, field_ok_iff.1 rfl, rfl⟩,
    _, ⟨"bio", .default⟩, rfl, rfl, field_ok_iff.1 rfl, rfl⟩

end Translator

end GraphStore
