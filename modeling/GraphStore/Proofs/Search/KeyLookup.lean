import GraphStore.Proofs.Index.CompositeKey
import GraphStore.Proofs.Index.Maintenance
import GraphStore.Proofs.Search.Constraints

/-!
Lookups in a composite index answer their condition. Keys to fetch and keys of a vertex are made of choices:
one value that the condition leaves each field, or one that the vertex has under it. As keys tell plain
values apart, a key of the vertex is fetched just if some choice is both.
-/
namespace GraphStore

/-- Neither not a number nor the negative zero. -/
structure Binary64.IsPlain (x : Binary64) : Prop where
  number : x.isNaN = false
  positive : x.isZero = true → x.negative = false

/-- Values for which to be equal is to be stored alike. Such a date has whole milliseconds, and is in no leap second
that another second follows. -/
def Value.IsPlain : Value → Prop
  | float x => x.IsPlain
  | geo lat lon => lat.IsPlain ∧ lon.IsPlain
  | date t => t.floorMillis = t ∧ (t.isLeap = true → t.isBeyond = true)
  | _ => True

def Condition.IsPlain (c : Condition) : Prop := ∀ e ∈ c.leaves, e.2.IsPlain

def Vertex.IsPlain (v : Vertex) : Prop := ∀ p ∈ v.properties, p.value.IsPlain

theorem Binary64.IsPlain.eq_of_equals {x y : Binary64} (left : x.IsPlain) (right : y.IsPlain)
    (h : x.equals y = true) : x = y :=
  (eq_iff_sameZero h).2 fun zero zero' => (left.positive zero).trans (right.positive zero').symm

theorem Binary64.IsPlain.equals_self {x : Binary64} (plain : x.IsPlain) : x.equals x = true := by
  simp [equals, plain.number]

namespace Value.IsPlain

variable {v w : Value} {values : List Value}

theorem equals_iff (left : v.IsPlain) (right : w.IsPlain) : v.equals w = true ↔ v = w := by
  constructor
  · intro h
    cases v <;> cases w <;> simp only [equals, Bool.false_eq_true, decide_eq_true_eq] at h
    case float => exact congrArg float (Binary64.IsPlain.eq_of_equals left right h)
    case geo =>
      obtain ⟨lat, lon⟩ := Bool.and_eq_true_iff.1 h
      rw [left.1.eq_of_equals right.1 lat, left.2.eq_of_equals right.2 lon]
    all_goals rw [h]
  · rintro rfl
    cases v <;> simp only [equals, decide_true, Bool.and_eq_true]
    · exact Binary64.IsPlain.equals_self left
    · exact ⟨left.1.equals_self, left.2.equals_self⟩

theorem kept_compact (plain : v.IsPlain) : v.kept .compact = v := by
  cases v with
  | date t => exact congrArg date (Timestamp.settled_eq_self_iff.2 plain)
  | _ => rfl

theorem map_kept_compact (plain : ∀ v ∈ values, v.IsPlain) : values.map (·.kept .compact) = values :=
  (List.map_congr_left fun v there => (plain v there).kept_compact).trans (List.map_id' values)

theorem isAmong_iff (plain : v.IsPlain) (all : ∀ w ∈ values, w.IsPlain) :
    v.isAmong values = true ↔ v ∈ values := by
  rw [Value.isAmong_iff]
  constructor
  · rintro ⟨w, there, same⟩
    exact ((all w there).equals_iff plain).1 same ▸ there
  · exact fun there => ⟨v, there, (plain.equals_iff plain).2 rfl⟩

end Value.IsPlain

namespace Constraints

variable {c left : Constraints} {fields : List SchemaId} {lists : List (List Value)} {index : String}

/-- The values left for a key. -/
def allowed (c : Constraints) (key : SchemaId) : List Value := (c.get? key).getD []

theorem ofFields_ok (distinct : fields.Nodup) (h : ofFields index c fields = .ok (lists, left)) :
    lists = fields.map c.allowed ∧ (∀ key ∈ fields, (c.get? key).isSome) ∧
      ∀ key, left.get? key = if key ∈ fields then none else c.get? key := by
  induction fields generalizing c lists with
  | nil =>
    obtain ⟨rfl, rfl⟩ := Prod.mk.inj (Except.ok.inj h)
    simp
  | cons field rest ih =>
    obtain ⟨fresh, distinct⟩ := List.nodup_cons.1 distinct
    rw [ofFields] at h
    split at h
    · cases h
    next values known =>
    obtain ⟨⟨others, left'⟩, found, made⟩ := bind_ok_iff.1 h
    obtain ⟨rfl, rfl⟩ := Prod.mk.inj (pure_ok_iff.1 made)
    obtain ⟨rfl, bound, rest_eq⟩ := ih distinct found
    have apart (key : SchemaId) (member : key ∈ rest) : key ≠ field := fun same => fresh (same ▸ member)
    refine ⟨?_, ?_, fun key => ?_⟩
    · rw [List.map_cons, allowed, known, Option.getD_some]
      congr 1
      refine List.map_congr_left fun key member => ?_
      rw [allowed, allowed, KeyMap.get?_erase, if_neg (apart key member)]
    · refine List.forall_mem_cons.2 ⟨by simp [known], fun key member => ?_⟩
      have there := bound key member
      rwa [KeyMap.get?_erase, if_neg (apart key member)] at there
    · rw [rest_eq, KeyMap.get?_erase]
      by_cases same : key = field <;> simp [same]

theorem ofFields_taken (distinct : fields.Nodup) (bound : ∀ key ∈ fields, (c.get? key).isSome) :
    ∃ found, ofFields index c fields = .ok found := by
  induction fields generalizing c with
  | nil => exact ⟨([], c), rfl⟩
  | cons field rest ih =>
    obtain ⟨fresh, distinct⟩ := List.nodup_cons.1 distinct
    obtain ⟨first, others⟩ := List.forall_mem_cons.1 bound
    obtain ⟨values, known⟩ := Option.isSome_iff_exists.1 first
    have kept : ∀ key ∈ rest, ((c.erase field).get? key).isSome := by
      intro key member
      have apart : key ≠ field := fun same => fresh (same ▸ member)
      rw [KeyMap.get?_erase, if_neg apart]
      exact others key member
    obtain ⟨found, taken⟩ := ih distinct kept
    refine ⟨(values :: found.1, found.2), ?_⟩
    rw [ofFields, known]
    exact bind_ok_iff.2 ⟨found, taken, rfl⟩

/-- Constraints that name just some keys allow a choice of values allowed for each of them. -/
theorem allows_iff {choice : SchemaId → Value} (names : ∀ key, (c.get? key).isSome ↔ key ∈ fields) :
    c.Allows choice ↔ ∀ key ∈ fields, (choice key).isAmong (c.allowed key) = true := by
  constructor
  · intro allows key member
    obtain ⟨values, known⟩ := Option.isSome_iff_exists.1 ((names key).2 member)
    rw [allowed, known]
    exact allows key values known
  · intro each key values known
    have among := each key ((names key).1 (by simp [known]))
    rwa [allowed, known] at among

/-- What a plain condition leaves of no constraints is plain. -/
theorem Absorbs.isPlain {condition : Condition} (absorbed : Absorbs .empty condition c)
    (plain : condition.IsPlain) (key : SchemaId) : ∀ v ∈ c.allowed key, v.IsPlain := by
  intro v there
  cases known : c.get? key with
  | none => simp [allowed, known] at there
  | some values =>
    rw [allowed, known] at there
    obtain ⟨held, before, -⟩ | leaf := absorbed.source key values known v there
    · cases before
    · exact plain (key, v) leaf

end Constraints

/-- The values of a match, from the values of the candidates. -/
theorem Match.map_choices (candidates : SchemaId → List MatchedValue) (keys : List SchemaId) :
    (choices candidates keys).map (fun m => m.map (·.value)) =
      KeyLookup.choices (keys.map fun key => (candidates key).map (·.value)) := by
  induction keys with
  | nil => rfl
  | cons key rest ih =>
    simp only [choices, List.map_cons, KeyLookup.choices, ← ih, List.map_flatMap, List.flatMap_map,
      List.map_map]
    rfl

namespace KeyLookup

variable {i : CompositeIndex} {condition : Condition} {fields : List SchemaId}
  {lists picks : List (List Value)} {codec : KeyCodec} {types : Types} {found keys : List Bytes}

theorem map_mem_choices {choice : SchemaId → Value} {allowed : SchemaId → List Value} :
    fields.map choice ∈ choices (fields.map allowed) ↔ ∀ key ∈ fields, choice key ∈ allowed key := by
  induction fields with
  | nil => simp [choices]
  | cons key rest ih => simp [choices, ih]

/-- Whatever is picked from lists, one for each of some keys, is picked by the key. -/
theorem eq_map_of_mem_choices {values : List Value} {allowed : SchemaId → List Value}
    (distinct : fields.Nodup) (h : values ∈ choices (fields.map allowed)) :
    ∃ choice : SchemaId → Value, values = fields.map choice := by
  induction fields generalizing values with
  | nil => exact ⟨fun _ => .bool false, List.mem_singleton.1 h⟩
  | cons key rest ih =>
    obtain ⟨fresh, distinct⟩ := List.nodup_cons.1 distinct
    obtain ⟨v, -, h⟩ := List.mem_flatMap.1 h
    obtain ⟨others, there, rfl⟩ := List.mem_map.1 h
    obtain ⟨choice, rfl⟩ := ih distinct there
    refine ⟨fun k => if k = key then v else choice k, ?_⟩
    rw [List.map_cons, if_pos rfl]
    congr 1
    refine List.map_congr_left fun k member => ?_
    have apart : k ≠ key := fun same => fresh (same ▸ member)
    rw [if_neg apart]

/-- What is picked from the lists of two families at once is a choice from both. -/
theorem exists_choices_iff {one other : SchemaId → List Value} (distinct : fields.Nodup) :
    (∃ values ∈ choices (fields.map one), values ∈ choices (fields.map other)) ↔
      ∃ choice : SchemaId → Value, (∀ key ∈ fields, choice key ∈ one key) ∧
        ∀ key ∈ fields, choice key ∈ other key := by
  constructor
  · rintro ⟨values, left, right⟩
    obtain ⟨choice, rfl⟩ := eq_map_of_mem_choices distinct left
    exact ⟨choice, map_mem_choices.1 left, map_mem_choices.1 right⟩
  · rintro ⟨choice, left, right⟩
    exact ⟨fields.map choice, map_mem_choices.2 left, map_mem_choices.2 right⟩

/-- The keys built are those of the picks, each once. -/
theorem build_ok (distinct : found.Nodup) (h : build codec types i found picks = .ok keys) :
    keys.Nodup ∧ (∀ values ∈ picks, ∃ key, codec.build types i values = .ok key) ∧
      ∀ key, key ∈ keys ↔ key ∈ found ∨ ∃ values ∈ picks, codec.build types i values = .ok key := by
  induction picks generalizing found with
  | nil =>
    obtain rfl := Except.ok.inj h
    simpa using distinct
  | cons values rest ih =>
    obtain ⟨first, built, others⟩ := bind_ok_iff.1 h
    have more : (if first ∈ found then found else found ++ [first]).Nodup := by
      split
      · exact distinct
      · next new => exact distinct.append (List.nodup_singleton first) (by simpa using new)
    have grown (key : Bytes) : key ∈ (if first ∈ found then found else found ++ [first]) ↔
        key ∈ found ∨ key = first := by
      split
      · next old => exact ⟨.inl, fun either => either.elim id fun same => same ▸ old⟩
      · simp
    obtain ⟨nodup, each, members⟩ := ih more others
    refine ⟨nodup, List.forall_mem_cons.2 ⟨⟨first, built⟩, each⟩, fun key => ?_⟩
    simp only [members, grown, List.mem_cons, exists_eq_or_imp, built, Except.ok.injEq, or_assoc,
      eq_comm (a := first)]

theorem fieldValues_ok (distinct : i.fields.Nodup) (h : fieldValues i condition = .ok lists) :
    ∃ c, Constraints.Absorbs .empty condition c ∧ lists = i.fields.map c.allowed ∧
      ∀ key, (c.get? key).isSome ↔ key ∈ i.fields := by
  rw [fieldValues] at h
  split at h
  · cases h
  obtain ⟨c, collected, h⟩ := bind_ok_iff.1 h
  obtain ⟨⟨values, left⟩, split, h⟩ := bind_ok_iff.1 h
  simp only at h
  split at h
  · cases h
  next none_left =>
  obtain rfl := pure_ok_iff.1 h
  obtain ⟨rfl, bound, rest⟩ := Constraints.ofFields_ok distinct split
  refine ⟨c, Constraints.absorbs_of_collect collected, rfl, fun key => ⟨fun known => ?_, bound key⟩⟩
  by_contra outside
  have gone := KeyMap.head?_keys_eq_none_iff.1 none_left key
  rw [rest, if_neg outside] at gone
  simp [gone] at known

theorem fieldValues_taken (distinct : i.fields.Nodup) (maintained : i.status.isMaintained = true)
    (lookup : condition.IsLookup) (covers : ∀ key, key ∈ condition.keys ↔ key ∈ i.fields) :
    ∃ lists, fieldValues i condition = .ok lists := by
  obtain ⟨c, collected⟩ := Constraints.collect_of_isLookup lookup .empty
  have names (key : SchemaId) : (c.get? key).isSome ↔ key ∈ i.fields := by
    rw [(Constraints.absorbs_of_collect collected).named, covers]
    simp
  have taken : ∃ found, c.ofFields i.name i.fields = .ok found :=
    Constraints.ofFields_taken distinct fun key member => (names key).2 member
  obtain ⟨⟨lists, left⟩, split⟩ := taken
  obtain ⟨-, -, rest⟩ := Constraints.ofFields_ok distinct split
  have none_left : left.keys.head? = none := by
    refine KeyMap.head?_keys_eq_none_iff.2 fun key => ?_
    rw [rest]
    split
    · rfl
    · next outside => exact Option.not_isSome_iff_eq_none.1 (mt (names key).1 outside)
  refine ⟨lists, ?_⟩
  rw [fieldValues, maintained]
  refine bind_ok_iff.2 ⟨c, collected, bind_ok_iff.2 ⟨(lists, left), split, ?_⟩⟩
  simp only [none_left]
  rfl

/-- Only what the condition asks can make a query invalid; a value that does not fit its key is a fault of
another kind. -/
theorem invalidQuery_iff : (∃ fault, ofCondition codec types i condition = .error (.invalidQuery fault)) ↔
    ∃ fault, fieldValues i condition = .error fault := by
  rw [ofCondition]
  cases fieldValues i condition with
  | error fault => exact ⟨fun _ => ⟨fault, rfl⟩, fun _ => ⟨fault, rfl⟩⟩
  | ok lists =>
    refine ⟨?_, nofun⟩
    rintro ⟨fault, failed⟩
    cases built : build codec types i [] (choices lists) <;>
      simp [Except.mapError, bind, Except.bind, liftFault, built, pure, Except.pure] at failed

theorem ofCondition_ok {q : KeyLookup} (h : ofCondition codec types i condition = .ok q) :
    ∃ lists, fieldValues i condition = .ok lists ∧
      build codec types i [] (choices lists) = .ok q.keys := by
  rw [ofCondition] at h
  cases split : fieldValues i condition with
  | error fault => simp [split, Except.mapError, bind, Except.bind] at h
  | ok lists =>
    refine ⟨lists, rfl, ?_⟩
    cases built : build codec types i [] (choices lists) with
    | error fault => simp [split, Except.mapError, bind, Except.bind, liftFault, built] at h
    | ok keys =>
      simp only [split, Except.mapError, bind, Except.bind, liftFault, built, pure, Except.pure,
        Except.ok.injEq] at h
      rw [← h]

/-- A condition is refused just if it is not of the right build or does not name just the fields. -/
theorem refused_iff (distinct : i.fields.Nodup) (maintained : i.status.isMaintained = true) :
    (∃ fault, ofCondition codec types i condition = .error (.invalidQuery fault)) ↔
      ¬condition.IsLookup ∨ ¬∀ key, key ∈ condition.keys ↔ key ∈ i.fields := by
  rw [invalidQuery_iff, ← not_and_or]
  constructor
  · rintro ⟨fault, failed⟩ ⟨lookup, covers⟩
    obtain ⟨lists, taken⟩ := fieldValues_taken distinct maintained lookup covers
    cases failed.symm.trans taken
  · intro wrong
    cases split : fieldValues i condition with
    | error fault => exact ⟨fault, rfl⟩
    | ok lists =>
      obtain ⟨c, absorbed, -, names⟩ := fieldValues_ok distinct split
      refine absurd ⟨absorbed.lookup, fun key => ?_⟩ wrong
      rw [← names, absorbed.named]
      simp

/-- Plain values make one key just if they are the same. -/
theorem build_inj {values others : List Value} {key : Bytes} (wide : codec.IsWide)
    (plain : ∀ v ∈ values, v.IsPlain) (plain' : ∀ v ∈ others, v.IsPlain)
    (left : codec.build types i values = .ok key) (right : codec.build types i others = .ok key) :
    values = others := by
  have kept := KeyCodec.kept_of_build_eq wide left right
  rwa [Value.IsPlain.map_kept_compact plain, Value.IsPlain.map_kept_compact plain'] at kept

theorem isPlain_of_mem_choices {family : SchemaId → List Value} {values : List Value}
    (plain : ∀ key, ∀ v ∈ family key, v.IsPlain) (h : values ∈ choices (fields.map family)) :
    ∀ v ∈ values, v.IsPlain := by
  induction fields generalizing values with
  | nil =>
    rw [List.map_nil, choices, List.mem_singleton] at h
    simp [h]
  | cons key rest ih =>
    obtain ⟨v, member, h⟩ := List.mem_flatMap.1 h
    obtain ⟨others, there, rfl⟩ := List.mem_map.1 h
    exact List.forall_mem_cons.2 ⟨plain key v member, ih there⟩

/-- The values that a vertex has under a key. -/
def current (v : Vertex) (key : SchemaId) : List Value := (Match.candidates v none key).map (·.value)

theorem mem_current {v : Vertex} {key : SchemaId} {value : Value} :
    value ∈ current v key ↔ ∃ p ∈ v.propertiesOf key, p.value = value := by
  simp [current, Match.candidates]

theorem isPlain_of_current {v : Vertex} (plain : v.IsPlain) (key : SchemaId) :
    ∀ value ∈ current v key, value.IsPlain := by
  intro value there
  obtain ⟨p, on, rfl⟩ := mem_current.1 there
  exact plain p (List.mem_of_mem_filter on)

/-- The keys of a vertex are those of the choices from its values. -/
theorem exists_ofMatch_iff {v : Vertex} : (∃ m ∈ Match.ofVertex v fields none, ∃ key ∈ keys,
    codec.ofMatch types i m = .ok key) ↔
      ∃ values ∈ choices (fields.map (current v)), ∃ key ∈ keys, codec.build types i values = .ok key := by
  have same : (Match.ofVertex v fields none).map (fun m => m.map (·.value)) =
      choices (fields.map (current v)) := Match.map_choices (Match.candidates v none) fields
  rw [← same]
  simp only [List.mem_map, exists_exists_and_eq_and]
  rfl

/-- The keys fetched meet a vertex just if the condition holds of some choice of its values. -/
theorem meets_iff_holds {q : KeyLookup} (wide : codec.IsWide) (distinct : i.fields.Nodup)
    (h : ofCondition codec types i condition = .ok q) (plain : condition.IsPlain) {v : Vertex}
    (plain' : v.IsPlain) :
    (∃ m ∈ Match.ofVertex v i.fields none, ∃ key ∈ q.keys, codec.ofMatch types i m = .ok key) ↔
      ∃ choice : SchemaId → Value, (∀ key ∈ i.fields, ∃ p ∈ v.propertiesOf key, p.value = choice key) ∧
        condition.holds choice = true := by
  obtain ⟨lists, split, built⟩ := ofCondition_ok h
  obtain ⟨c, absorbed, rfl, names⟩ := fieldValues_ok distinct split
  obtain ⟨-, writable, members⟩ := build_ok List.nodup_nil built
  have plain_current := isPlain_of_current plain'
  have plain_allowed := absorbed.isPlain plain
  -- keys of the vertex that are fetched come from a choice that both families offer
  have shared : (∃ values ∈ choices (i.fields.map (current v)), ∃ key ∈ q.keys,
      codec.build types i values = .ok key) ↔
        ∃ values ∈ choices (i.fields.map (current v)), values ∈ choices (i.fields.map c.allowed) := by
    constructor
    · rintro ⟨values, there, key, fetched, made⟩
      obtain none_found | ⟨others, offered, made'⟩ := (members key).1 fetched
      · cases none_found
      · have same : values = others := build_inj wide (isPlain_of_mem_choices plain_current there)
          (isPlain_of_mem_choices plain_allowed offered) made made'
        exact ⟨values, there, same ▸ offered⟩
    · rintro ⟨values, there, offered⟩
      obtain ⟨key, made⟩ := writable values offered
      exact ⟨values, there, key, (members key).2 (.inr ⟨values, offered, made⟩), made⟩
  rw [exists_ofMatch_iff, shared, exists_choices_iff distinct]
  refine exists_congr fun choice => ?_
  simp only [mem_current]
  refine and_congr_right fun ours => ?_
  have empty_allows : Constraints.Allows .empty choice := nofun
  have holds : c.Allows choice ↔ condition.holds choice = true := by
    rw [absorbed.allows]
    exact and_iff_right empty_allows
  rw [← holds, Constraints.allows_iff names]
  refine forall₂_congr fun key member => ?_
  have plain_choice := plain_current key (choice key) (mem_current.2 (ours key member))
  exact (plain_choice.isAmong_iff (plain_allowed key)).symm

/-- A question for either of two years. -/
def twoYears : Condition := .or ([.int 2001, .int 2005].map (.equals Schema.since.id))

def annIn2005 : Vertex := ⟨"ann", none, [⟨"p", Schema.since.id, .int 2005, .empty⟩]⟩

/-- The index finds persons by their birth. -/
def byBirth : CompositeIndex := ⟨.ofNat 26, "by birth", .vertex, [Schema.birth.id], .list, .enabled, none⟩

def annBornAt (t : Timestamp) : Vertex := ⟨"ann", none, [⟨"p", Schema.birth.id, .date t, .empty⟩]⟩

end KeyLookup

end GraphStore
