import GraphStore.Proofs.Index.FieldRun
import GraphStore.Proofs.Value.SearchForm
import Mathlib.Data.List.Pairwise
import Mathlib.Data.Multiset.AddSub

/-!
Fields that hold what a vertex has. A LIST field has an entry for each property, but a property that goes takes
away the first entry of an equal value, which may be another one's. A SET field has the entries of the
properties in their order as long as the backend can tell their values apart. A SINGLE field holds the value that
came last, and is cleared with any value that goes.
-/
namespace GraphStore

/-- The same value, with the same beside it. -/
def FieldValue.Same (f g : FieldValue) : Prop := f.value.Same g.value ∧ { f with value := g.value } = g

theorem FieldValue.same_equivalence : Equivalence Same where
  refl f := ⟨.refl f.value, rfl⟩
  symm same := ⟨same.1.symm, by rw [← same.2]⟩
  trans first second := ⟨first.1.trans second.1, by rw [← second.2, ← first.2]⟩

theorem FieldValue.value_equivalence : Equivalence fun f g : FieldValue => f.value.Same g.value :=
  ⟨fun f => .refl f.value, .symm, .trans⟩

namespace FieldSlot

variable {c : Cardinality} {v : FieldValue} {ws : List FieldValue}

theorem values_ofMany (ws : List FieldValue) : ((ofMany ws).map (·.values)).getD [] = ws := by
  cases ws <;> rfl

/-- A field with the values of a key, of which a SINGLE one holds the first. -/
def ofValues : Cardinality → List FieldValue → Option FieldSlot
  | .single, vs => vs.head?.map .single
  | _, vs => ofMany vs

theorem ofMany_eq_many {vs : List FieldValue} (h : ofMany ws = some (.many vs)) : ws = vs := by
  cases ws with
  | nil => cases h
  | cons w rest => exact FieldSlot.many.inj (Option.some.inj h)

theorem after_add (several : c ≠ .single) (more : Document.addTo c v ws = ws ++ [v]) :
    after .add c v (ofMany ws) = ofMany (ws ++ [v]) := by
  have filled : ofMany (ws ++ [v]) = some (.many (ws ++ [v])) := if_neg (by simp)
  rw [filled, ← more]
  conv => rhs; rw [← values_ofMany ws]
  cases c with
  | single => exact absurd rfl several
  | _ => rfl

theorem after_delete (several : c ≠ .single) (v : FieldValue) (ws : List FieldValue) :
    after .delete c v (ofMany ws) = ofMany (Document.removeFrom v ws) := by
  cases c with
  | single => exact absurd rfl several
  | _ => cases ws <;> rfl

end FieldSlot

/-- If two collections match, and so do two of their items, then the others match too. -/
theorem rel_of_rel_cons {α : Type} {R : α → α → Prop} (equivalence : Equivalence R) {x y : α}
    {s t : Multiset α} (rel : Multiset.Rel R (x ::ₘ s) (y ::ₘ t)) (same : R x y) : Multiset.Rel R s t := by
  obtain ⟨y', t', match', rel', shape⟩ := Multiset.rel_cons_left.1 rel
  obtain ⟨-, rfl⟩ | ⟨-, left, rfl, rfl⟩ := Multiset.cons_eq_cons.1 shape
  · exact rel'
  · obtain ⟨x', s', match'', rel'', rfl⟩ := Multiset.rel_cons_right.1 rel'
    exact .cons (equivalence.trans match'' (equivalence.trans (equivalence.symm same) match')) rel''

/-- The values of a field go with those of a vertex, in whatever order. -/
def FieldSlot.Lists (R : FieldValue → FieldValue → Prop) (held : Option FieldSlot) (vs : List FieldValue) :
    Prop :=
  ∃ ws : List FieldValue, held = FieldSlot.ofMany ws ∧ Multiset.Rel R ws vs

variable {allowed : Vertex → UpdateKind → VertexProperty → Prop} {id : VertexId} {label : Option SchemaId}
variable {last : Option UpdateKind} {v : Vertex} {key : SchemaId} {a : AuxiliaryKeys}
variable {held : Option FieldSlot} {p : VertexProperty}

/-- A property of the vertex, and those that stay when it goes. -/
theorem Vertex.coe_properties (distinct : v.Distinct) (on : p ∈ v.properties) :
    (v.properties.map a.entry : Multiset FieldValue) =
      a.entry p ::ₘ ((v.remove p.id).2.properties.map a.entry : Multiset FieldValue) := by
  rw [Multiset.cons_coe, Multiset.coe_eq_coe, ← List.map_cons]
  refine List.Perm.map _ ?_
  obtain ⟨q, before, after, -, named, shape, left⟩ :=
    List.exists_of_eraseP (p := fun q : VertexProperty => decide (q.id = p.id)) on (by simp)
  obtain rfl : q = p := distinct.eq_of_id (by simp [shape]) on (by simpa using named)
  rw [Vertex.remove, left, shape]
  exact List.perm_middle

section List

variable {R : FieldValue → FieldValue → Prop}

/-- The entry that goes matches the property that goes, if that matches all that are equal to it. -/
theorem FieldSlot.Lists.remove (equivalence : Equivalence R) (values : ∀ f g, R f g → f.value.Same g.value)
    (distinct : v.Distinct) (on : p ∈ v.properties)
    (spares : ∀ q ∈ v.properties, (a.entry q).value.equals (a.entry p).value = true →
      R (a.entry q) (a.entry p)) (lists : Lists R held (v.properties.map a.entry)) :
    Lists R (after .delete .list (a.entry p) held) ((v.remove p.id).2.properties.map a.entry) := by
  obtain ⟨ws, rfl, rel⟩ := lists
  refine ⟨Document.removeFrom (a.entry p) ws, after_delete (by decide) (a.entry p) ws, ?_⟩
  have self : (a.entry p).value.equals (a.entry p).value = true := p.value.searchForm_equals_self
  have match_of_mem (w : FieldValue) (there : w ∈ ws) :
      ∃ q ∈ v.properties, R w (a.entry q) := by
    obtain ⟨f, member, same⟩ := Multiset.exists_mem_of_rel_of_mem rel (Multiset.mem_coe.2 there)
    obtain ⟨q, on, rfl⟩ := List.mem_map.1 (Multiset.mem_coe.1 member)
    exact ⟨q, on, same⟩
  rw [Vertex.coe_properties distinct on] at rel
  -- there is an entry of an equal value, and the first such one goes
  obtain ⟨x, rest, same, -, shape⟩ := Multiset.rel_cons_right.1 rel
  have there : x ∈ ws := Multiset.mem_coe.1 (shape ▸ Multiset.mem_cons_self x rest)
  have equal : x.value.equals (a.entry p).value = true := (values _ _ same).equals_left.trans self
  obtain ⟨w, before, after, -, first, parts, left⟩ :=
    List.exists_of_eraseP (p := fun f : FieldValue => f.value.equals (a.entry p).value) there equal
  obtain ⟨q, on', same'⟩ := match_of_mem w (by simp [parts])
  have equal' : (a.entry q).value.equals (a.entry p).value = true := by
    rw [← (values _ _ same').equals_left]
    exact first
  refine rel_of_rel_cons equivalence (x := w) (y := a.entry p) ?_
    (equivalence.trans same' (spares q on' equal'))
  have taken : (ws : Multiset FieldValue) = w ::ₘ (Document.removeFrom (a.entry p) ws : Multiset _) := by
    rw [Multiset.cons_coe, Multiset.coe_eq_coe, Document.removeFrom, left, parts]
    exact List.perm_middle
  rwa [← taken]

/-- A LIST field goes with the vertex, up to whatever tells the removals apart. -/
theorem FieldRun.lists (equivalence : Equivalence R) (values : ∀ f g, R f g → f.value.Same g.value)
    (spares : ∀ v p, allowed v .delete p → ∀ q ∈ v.properties,
      (a.entry q).value.equals (a.entry p).value = true → R (a.entry q) (a.entry p))
    (run : FieldRun a .list key allowed id label last v held) :
    FieldSlot.Lists R held (v.properties.map a.entry) := by
  induction run with
  | start => exact ⟨[], rfl, Multiset.rel_zero_left.2 rfl⟩
  | @add _ v held p _ _ _ _ ih =>
    obtain ⟨ws, rfl, rel⟩ := ih
    refine ⟨ws ++ [a.entry p], FieldSlot.after_add (by decide) rfl, ?_⟩
    have one : Multiset.Rel R ([a.entry p] : List FieldValue) ([a.entry p] : List FieldValue) :=
      .cons (equivalence.refl _) .zero
    rw [Vertex.add, List.map_append]
    exact rel.add one
  | @remove _ v held p before on may ih =>
    exact ih.remove equivalence values before.vertex.1 on (spares v p may)

end List

/-- A property that goes has the same beside its value as every other one of an equal value. -/
def AuxiliaryKeys.Spares (a : AuxiliaryKeys) (v : Vertex) (kind : UpdateKind) (p : VertexProperty) : Prop :=
  kind = .delete → ∀ q ∈ v.properties, (a.entry q).value.equals (a.entry p).value = true →
    (a.entry q).Same (a.entry p)

section Set

theorem eraseP_congr {α : Type} {f g : α → Bool} {l : List α} (agree : ∀ x ∈ l, f x = g x) :
    l.eraseP f = l.eraseP g := by
  induction l with
  | nil => rfl
  | cons x rest ih =>
    obtain ⟨first, others⟩ := List.forall_mem_cons.1 agree
    rw [List.eraseP_cons, List.eraseP_cons, first, ih others]

theorem Document.mergeFirst_of_absent {f : FieldValue} {ws : List FieldValue}
    (absent : ∀ w ∈ ws, w.value.equals f.value = false) : mergeFirst f ws = none := by
  induction ws with
  | nil => rfl
  | cons w rest ih =>
    obtain ⟨first, others⟩ := List.forall_mem_cons.1 absent
    simp [mergeFirst, first, ih others]

/-- No two properties of the vertex have values that are equal on a search backend. -/
def Vertex.Differs (v : Vertex) (a : AuxiliaryKeys) : Prop :=
  v.properties.Pairwise fun p q => (a.entry p).value.equals (a.entry q).value = false

/-- Of values that all differ, the one that goes is that of the property that goes. -/
theorem Vertex.Differs.removeFrom (differs : v.Differs a) (distinct : v.Distinct) (on : p ∈ v.properties) :
    Document.removeFrom (a.entry p) (v.properties.map a.entry) =
      (v.remove p.id).2.properties.map a.entry := by
  have agree : ∀ q ∈ v.properties,
      (a.entry q).value.equals (a.entry p).value = decide (q.id = p.id) := by
    intro q there
    by_cases same : q = p
    · subst same
      rw [decide_eq_true rfl]
      exact q.value.searchForm_equals_self
    · have apart : q.id ≠ p.id := fun named => same (distinct.eq_of_id there on named)
      have symmetric : Std.Symm fun p q : VertexProperty =>
          (a.entry p).value.equals (a.entry q).value = false :=
        ⟨fun _ _ other => (Json.equals_comm ..).trans other⟩
      rw [List.Pairwise.forall differs there on same, decide_eq_false apart]
  rw [Document.removeFrom, List.eraseP_map, Vertex.remove]
  exact congrArg (List.map a.entry) (eraseP_congr agree)

/-- As long as no value comes that equals one on the vertex, a SET field has the entries of the properties. -/
theorem FieldRun.holds_entries (apart : ∀ v p, allowed v .add p → ∀ q ∈ v.properties,
      (a.entry q).value.equals (a.entry p).value = false)
    (run : FieldRun a .set key allowed id label last v held) :
    held = FieldSlot.ofMany (v.properties.map a.entry) ∧ v.Differs a := by
  induction run with
  | start => exact ⟨rfl, .nil⟩
  | @add _ v held p _ _ _ may ih =>
    obtain ⟨rfl, differs⟩ := ih
    have absent := apart v p may
    refine ⟨?_, List.pairwise_append.2 ⟨differs, List.pairwise_singleton .., by simpa using absent⟩⟩
    rw [Vertex.add, List.map_append]
    refine FieldSlot.after_add (by decide) ?_
    rw [Document.addTo, Document.mergeFirst_of_absent (by simpa using absent), Option.getD_none]
  | @remove _ v held p before on _ ih =>
    obtain ⟨rfl, differs⟩ := ih
    refine ⟨?_, differs.sublist List.eraseP_sublist⟩
    rw [FieldSlot.after_delete (by decide), differs.removeFrom before.vertex.1 on]

end Set

theorem FieldRun.properties_start {cardinality : Cardinality}
    (run : FieldRun a cardinality key allowed id label none v held) : v.properties = [] := by
  cases run
  rfl

/-- A SINGLE field tells what came last, unless something went after it. -/
theorem FieldRun.holds_last (run : FieldRun a .single key allowed id label last v held) :
    held = if last = some .add then v.properties.getLast?.map fun p => .single (a.entry p) else none := by
  cases run with
  | start => rfl
  | add => simp [FieldSlot.after, Vertex.add]
  | remove => rfl

/-- Of a vertex with one value at most, a SINGLE field has that, unless something has just gone before it. -/
theorem FieldRun.holds_only (run : FieldRun a .single key allowed id label last v held)
    (few : v.properties.length ≤ 1) (emptied : last = some .delete → v.properties = []) :
    held = FieldSlot.ofValues .single (v.properties.map a.entry) := by
  rw [run.holds_last]
  cases last with
  | none =>
    rw [run.properties_start]
    rfl
  | some kind =>
    cases kind with
    | delete =>
      rw [emptied rfl]
      rfl
    | add =>
      cases one : v.properties with
      | nil => rfl
      | cons p rest =>
        obtain rfl : rest = [] := by simpa [one] using few
        rfl

namespace Planner

variable {c : Planner} {i : MixedIndex} {defaults : DefaultFields} {space : FieldSpace} {d : Document}
variable {type : RelationType}

/-- If every property that goes has the same beside its value as the others of an equal value, a LIST field holds
the entries of the properties. -/
theorem DocumentRun.lists_entries (keeps : c.KeepsField i key label) (keyed : defaults.Keyed)
    (typed : c.types.type? key = some type) (list : type.cardinality = .list)
    (run : c.DocumentRun i key defaults c.auxiliary.Spares id label last space v d) :
    ∃ name, (last ≠ none → (FieldSpace.resolve c.types i key space).1 = .ok name) ∧
      FieldSlot.Lists FieldValue.Same (d.field? name) ((v.propertiesOf key).map c.auxiliary.entry) := by
  obtain ⟨name, follows, field⟩ := run.fieldRun keeps keyed typed
  rw [list] at field
  refine ⟨name, follows.resolved, ?_⟩
  rw [field.propertiesOf]
  exact field.lists FieldValue.same_equivalence (fun _ _ same => same.1) fun v p spares => spares rfl

/-- Where a person has lived, any number of times. -/
def lived : RelationType :=
  { RelationType.propertyKey (.ofNat 13) "lived" .string with multiplicity := .multi }

def livedIndex : MixedIndex :=
  ⟨.ofNat 23, "lives", "es", .vertex, [⟨lived.id, .enabled, .default, none⟩], none, .managed⟩

/-- Places, each with the role in which a person lived there. -/
def livedPlanner : Planner :=
  ⟨⟨.ofList [(livedIndex.id, .mixed livedIndex)], [(livedIndex.name, livedIndex.id)],
      .ofList [(lived.id, [livedIndex.id])]⟩,
    (Schema.mk (.ofList [(lived.id, lived)]) .empty).lookup, .sha256 none,
    { AuxiliaryKeys.none with role := some (.ofNat 14) }, none⟩

theorem livedPlanner_keepsField : livedPlanner.KeepsField livedIndex lived.id none where
  reached := Catalog.Reachable.empty.create (d := .mixed livedIndex) rfl
  known := rfl
  declared := ⟨_, rfl, rfl⟩
  applies := rfl

def livedAs (relation : RelationId) (place role : String) : VertexProperty :=
  ⟨relation, lived.id, .string place, .ofList [(.ofNat 14, .string role)]⟩

/-- Of two entries for a childhood in Rome one goes. -/
theorem DocumentRun.lists_entries_twoPlaces : ∃ (space : FieldSpace) (d : Document),
    livedPlanner.DocumentRun livedIndex lived.id .empty livedPlanner.auxiliary.Spares "ann" none
      (some .delete) space ⟨"ann", none, [livedAs "p" "rome" "child", livedAs "q" "paris" "clerk"]⟩ d ∧
    ∃ name, (some UpdateKind.delete ≠ none →
        (FieldSpace.resolve livedPlanner.types livedIndex lived.id space).1 = .ok name) ∧
      FieldSlot.Lists FieldValue.Same (d.field? name)
        ((Vertex.propertiesOf ⟨"ann", none, [livedAs "p" "rome" "child", livedAs "q" "paris" "clerk"]⟩
          lived.id).map livedPlanner.auxiliary.entry) := by
  have never {v : Vertex} {p : VertexProperty} : livedPlanner.auxiliary.Spares v .add p := nofun
  have started : livedPlanner.DocumentRun livedIndex lived.id .empty livedPlanner.auxiliary.Spares "ann"
    none none _ _ _ := .start
  have one := started.add (livedAs "p" "rome" "child") ⟨"ann", none, []⟩ rfl (by simp)
    never rfl rfl .refl rfl
  have two := one.add (livedAs "q" "paris" "clerk") ⟨"ann", none, []⟩ rfl
    (by simp [Vertex.add, livedAs]) never rfl rfl .refl rfl
  have three := two.add (livedAs "r" "rome" "child") ⟨"ann", none, []⟩ rfl
    (by simp [Vertex.add, livedAs]) never rfl rfl .refl rfl
  have spares : livedPlanner.auxiliary.Spares ⟨"ann", none, [livedAs "p" "rome" "child",
      livedAs "q" "paris" "clerk", livedAs "r" "rome" "child"]⟩ .delete (livedAs "r" "rome" "child") := by
    intro _ q there equal
    simp only [List.mem_cons, List.not_mem_nil, or_false] at there
    obtain rfl | rfl | rfl := there
    · exact FieldValue.same_equivalence.refl _
    · exact absurd equal (by decide)
    · exact FieldValue.same_equivalence.refl _
  have left := three.remove (livedAs "r" "rome" "child") ⟨"ann", none, []⟩
    (by simp [Vertex.add]) spares rfl rfl .refl rfl
  exact ⟨_, _, left, lists_entries livedPlanner_keepsField DefaultFields.keyed_empty rfl rfl left⟩

/-- Ann worked in the place where she was a child, and her work there goes. What is left on the backend is her
work. -/
theorem DocumentRun.lists_another : livedPlanner.KeepsField livedIndex lived.id none ∧
    livedPlanner.types.type? lived.id = some lived ∧ lived.cardinality = .list ∧
    ∃ (space : FieldSpace) (d : Document),
      livedPlanner.DocumentRun livedIndex lived.id .empty (fun _ _ _ => True) "ann" none (some .delete) space
        ⟨"ann", none, [livedAs "p" "rome" "child"]⟩ d ∧
      (FieldSpace.resolve livedPlanner.types livedIndex lived.id space).1 = .ok "lived" ∧
      ¬FieldSlot.Lists FieldValue.Same (d.field? "lived")
        ((Vertex.propertiesOf ⟨"ann", none, [livedAs "p" "rome" "child"]⟩ lived.id).map
          livedPlanner.auxiliary.entry) := by
  have started : livedPlanner.DocumentRun livedIndex lived.id .empty (fun _ _ _ => True) "ann" none
    none _ _ _ := .start
  have one := started.add (livedAs "p" "rome" "child") ⟨"ann", none, []⟩ rfl (by simp)
    trivial rfl rfl .refl rfl
  have two := one.add (livedAs "q" "rome" "clerk") ⟨"ann", none, []⟩ rfl
    (by simp [Vertex.add, livedAs]) trivial rfl rfl .refl rfl
  have left := two.remove (livedAs "q" "rome" "clerk") ⟨"ann", none, []⟩
    (by simp [Vertex.add]) trivial rfl rfl .refl rfl
  refine ⟨livedPlanner_keepsField, rfl, rfl, _, _, left, rfl, ?_⟩
  rintro ⟨ws, held, rel⟩
  obtain rfl : ws = [livedPlanner.auxiliary.entry (livedAs "q" "rome" "clerk")] :=
    FieldSlot.ofMany_eq_many held.symm
  obtain ⟨f, there, same⟩ := Multiset.exists_mem_of_rel_of_mem rel (Multiset.mem_coe.2 List.mem_cons_self)
  obtain rfl := List.mem_singleton.1 (Multiset.mem_coe.1 there)
  have role := congrArg FieldValue.role same.2
  exact absurd role (by decide)

/-- In any run a LIST field holds the values of the properties. -/
theorem DocumentRun.lists_values (keeps : c.KeepsField i key label) (keyed : defaults.Keyed)
    (typed : c.types.type? key = some type) (list : type.cardinality = .list)
    (run : c.DocumentRun i key defaults allowed id label last space v d) :
    ∃ name, (last ≠ none → (FieldSpace.resolve c.types i key space).1 = .ok name) ∧
      FieldSlot.Lists (fun f g => f.value.Same g.value) (d.field? name)
        ((v.propertiesOf key).map c.auxiliary.entry) := by
  obtain ⟨name, follows, field⟩ := run.fieldRun keeps keyed typed
  rw [list] at field
  refine ⟨name, follows.resolved, ?_⟩
  rw [field.propertiesOf]
  exact field.lists FieldValue.value_equivalence (fun _ _ same => same) fun _ _ _ _ _ equal => .inr equal

end Planner

/-- What comes to a vertex with a SET key is none of the values there, as far as a search backend can tell. -/
def Cardinality.TellsApart (c : Cardinality) (v : Vertex) (kind : UpdateKind) (p : VertexProperty) : Prop :=
  c = .set → kind = .add → ∀ q ∈ v.properties, ¬q.value.Blurs p.value

/-- A SINGLE key has at most one value, and none if one has just gone. -/
def Cardinality.Fits (c : Cardinality) (last : Option UpdateKind) (ps : List VertexProperty) : Prop :=
  c = .single → ps.length ≤ 1 ∧ (last = some .delete → ps = [])

namespace Planner

variable {c : Planner} {i : MixedIndex} {defaults : DefaultFields} {space : FieldSpace} {d : Document}
variable {type : RelationType}

/-- The field of a SINGLE or SET key holds one entry for each property, and without a property it is not
there. -/
theorem DocumentRun.holds_current (keeps : c.KeepsField i key label) (keyed : defaults.Keyed)
    (typed : c.types.type? key = some type) (unlisted : type.cardinality ≠ .list)
    (run : c.DocumentRun i key defaults type.cardinality.TellsApart id label last space v d)
    (fits : type.cardinality.Fits last (v.propertiesOf key)) :
    ∃ name, (last ≠ none → (FieldSpace.resolve c.types i key space).1 = .ok name) ∧
      d.field? name =
        FieldSlot.ofValues type.cardinality ((v.propertiesOf key).map c.auxiliary.entry) := by
  obtain ⟨name, follows, field⟩ := run.fieldRun keeps keyed typed
  refine ⟨name, follows.resolved, ?_⟩
  rw [field.propertiesOf] at fits ⊢
  generalize type.cardinality = cardinality at *
  cases cardinality with
  | list => exact absurd rfl unlisted
  | set =>
    refine (field.holds_entries fun v p apart q there => ?_).1
    rw [Bool.eq_false_iff]
    exact fun equal => apart rfl rfl q there ((Value.searchForm_equals_iff ..).1 equal)
  | single =>
    obtain ⟨few, emptied⟩ := fits rfl
    exact field.holds_only few emptied

/-- When a person was seen, each point in time once. -/
def sighted : RelationType :=
  { RelationType.propertyKey (.ofNat 15) "seen" .date with multiplicity := .simple }

def sightedIndex : MixedIndex :=
  ⟨.ofNat 24, "sightings", "es", .vertex, [⟨sighted.id, .enabled, .default, none⟩], none, .managed⟩

def sightedPlanner : Planner :=
  ⟨⟨.ofList [(sightedIndex.id, .mixed sightedIndex)], [(sightedIndex.name, sightedIndex.id)],
      .ofList [(sighted.id, [sightedIndex.id])]⟩,
    (Schema.mk (.ofList [(sighted.id, sighted)]) .empty).lookup, .sha256 none, .none, none⟩

theorem sightedPlanner_keepsField : sightedPlanner.KeepsField sightedIndex sighted.id none where
  reached := Catalog.Reachable.empty.create (d := .mixed sightedIndex) rfl
  known := rfl
  declared := ⟨_, rfl, rfl⟩
  applies := rfl

theorem searchPlanner_keepsField : searchPlanner.KeepsField searchedSince Schema.since.id none where
  reached := Catalog.Reachable.empty.create (d := .mixed searchedSince) rfl
  known := rfl
  declared := ⟨_, rfl, rfl⟩
  applies := rfl

/-- A sighting some nanoseconds into 1970. -/
def sightedAt (relation : RelationId) (nanos : Nat) (small : nanos < 2000000000) : VertexProperty :=
  ⟨relation, sighted.id, .date ⟨0, nanos, small, by decide⟩, .empty⟩

theorem DocumentRun.holds_current_twoSightings : ∃ (space : FieldSpace) (d : Document),
    sightedPlanner.DocumentRun sightedIndex sighted.id .empty sighted.cardinality.TellsApart "ann" none
      (some .delete) space ⟨"ann", none, [sightedAt "q" 1000000 (by decide)]⟩ d ∧
    ∃ name, (some UpdateKind.delete ≠ none →
        (FieldSpace.resolve sightedPlanner.types sightedIndex sighted.id space).1 = .ok name) ∧
      d.field? name = FieldSlot.ofValues sighted.cardinality
        ((Vertex.propertiesOf ⟨"ann", none, [sightedAt "q" 1000000 (by decide)]⟩ sighted.id).map
          sightedPlanner.auxiliary.entry) := by
  have started : sightedPlanner.DocumentRun sightedIndex sighted.id .empty sighted.cardinality.TellsApart
    "ann" none none _ _ _ := .start
  have one := started.add (sightedAt "p" 0 (by decide)) ⟨"ann", none, []⟩ rfl (by simp)
    (by simp [Cardinality.TellsApart]) rfl rfl .refl rfl
  have apart : sighted.cardinality.TellsApart ⟨"ann", none, [sightedAt "p" 0 (by decide)]⟩ .add
      (sightedAt "q" 1000000 (by decide)) := by
    intro _ _ q there
    obtain rfl := List.mem_singleton.1 there
    show ¬Timestamp.floorMillis _ = Timestamp.floorMillis _
    decide
  have two := one.add (sightedAt "q" 1000000 (by decide)) ⟨"ann", none, []⟩ rfl
    (by simp [Vertex.add, sightedAt]) apart rfl rfl .refl rfl
  have left := two.remove (sightedAt "p" 0 (by decide)) ⟨"ann", none, []⟩
    (by simp [Vertex.add]) (by simp [Cardinality.TellsApart]) rfl rfl .refl rfl
  exact ⟨_, _, left,
    holds_current sightedPlanner_keepsField DefaultFields.keyed_empty rfl (by decide) left
      (by simp [Cardinality.Fits, sighted, RelationType.cardinality, Multiplicity.cardinality])⟩

/-- The year that goes takes the one that came before it along, and of two sightings in one millisecond there is
one on the backend. -/
theorem DocumentRun.current_lost :
    (searchPlanner.KeepsField searchedSince Schema.since.id none ∧
      searchPlanner.types.type? Schema.since.id = some Schema.since ∧ Schema.since.cardinality = .single ∧
      ∃ (space : FieldSpace) (d : Document),
        searchPlanner.DocumentRun searchedSince Schema.since.id .empty (fun _ _ _ => True) "ann" none
          (some .delete) space ⟨"ann", none, [sinceYear "q" 2002]⟩ d ∧
        (FieldSpace.resolve searchPlanner.types searchedSince Schema.since.id space).1 = .ok "since" ∧
        d.field? "since" = none) ∧
    (sightedPlanner.KeepsField sightedIndex sighted.id none ∧
      sightedPlanner.types.type? sighted.id = some sighted ∧ sighted.cardinality = .set ∧
      ∃ (space : FieldSpace) (d : Document),
        sightedPlanner.DocumentRun sightedIndex sighted.id .empty
          (fun v kind p => kind = .add → ∀ q ∈ v.properties, q.value.equals p.value = false) "ann" none
          (some .add) space
          ⟨"ann", none, [sightedAt "p" 0 (by decide), sightedAt "q" 1 (by decide)]⟩ d ∧
        (FieldSpace.resolve sightedPlanner.types sightedIndex sighted.id space).1 = .ok "seen" ∧
        d.field? "seen" =
          some (.many [sightedPlanner.auxiliary.entry (sightedAt "p" 0 (by decide))])) := by
  refine ⟨⟨searchPlanner_keepsField, rfl, rfl, ?_⟩, sightedPlanner_keepsField, rfl, rfl, ?_⟩
  · have started : searchPlanner.DocumentRun searchedSince Schema.since.id .empty (fun _ _ _ => True) "ann"
      none none _ _ _ := .start
    have one := started.add (sinceYear "p" 2001) ⟨"ann", none, []⟩ rfl (by simp) trivial
      rfl rfl .refl rfl
    have two := one.add (sinceYear "q" 2002) ⟨"ann", none, []⟩ rfl
      (by simp [Vertex.add, sinceYear]) trivial rfl rfl .refl rfl
    have left := two.remove (sinceYear "p" 2001) ⟨"ann", none, []⟩ (by simp [Vertex.add])
      trivial rfl rfl .refl rfl
    exact ⟨_, _, left, rfl, rfl⟩
  · have started : sightedPlanner.DocumentRun sightedIndex sighted.id .empty
      (fun v kind p => kind = .add → ∀ q ∈ v.properties, q.value.equals p.value = false) "ann" none
      none _ _ _ := .start
    have one := started.add (sightedAt "p" 0 (by decide)) ⟨"ann", none, []⟩ rfl (by simp)
      (by simp) rfl rfl .refl rfl
    have two := one.add (sightedAt "q" 1 (by decide)) ⟨"ann", none, []⟩ rfl
      (by simp [Vertex.add, sightedAt]) (by simp [Vertex.add, sightedAt, Value.equals]) rfl rfl .refl rfl
    exact ⟨_, _, two, rfl, rfl⟩

end Planner

end GraphStore
