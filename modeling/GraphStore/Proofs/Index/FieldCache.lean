import GraphStore.Index.FieldSpace
import GraphStore.Proofs.Index.FieldNames
import Mathlib.Logic.Relation

/-!
The cache of field names when many use it at once. A lookup that misses notes the generation, computes the
names, and leaves them; a registration adds a field and expires the names of its index afterwards. Between any
two of these steps others may take theirs. Names that were computed before a field was registered meet a later
generation once the registration is done, so they are not left: a cached entry is out of date at most while a
registration of its index is half done.
-/
namespace GraphStore

namespace FieldSpace

/-- The first half of a registration: the index learns of the field, and its cached names stay. -/
def learn (i : MixedIndex) (f : DefaultField) (registrar : Registrar) :
    Attempt FieldSpace IndexFault Bool := fun s =>
  let request := f.request i
  if s.defaults.isRegistered request.registration then (.ok false, s)
  else
    let answer := registrar s.calls request
    let asked := { s with calls := s.calls ++ [⟨request, answer⟩] }
    match answer with
    | .error fault => (.error (.backend fault), asked)
    | .ok () => (.ok true, { asked with defaults := s.defaults.register request.registration })

/-- What the first half of a registration comes to. -/
inductive Learns (i : MixedIndex) (f : DefaultField) (s : FieldSpace) :
    Except IndexFault Bool → FieldSpace → Prop where
  | known : s.defaults.isRegistered (f.request i).registration = true → Learns i f s (.ok false) s
  | new : s.defaults.isRegistered (f.request i).registration = false → Learns i f s (.ok true)
      { s with
        calls := s.calls ++ [⟨f.request i, .ok ()⟩]
        defaults := s.defaults.register (f.request i).registration }
  | refused (cause : BackendFault) : s.defaults.isRegistered (f.request i).registration = false →
      Learns i f s (.error (.backend cause)) { s with calls := s.calls ++ [⟨f.request i, .error cause⟩] }

theorem learns {i : MixedIndex} {f : DefaultField} {registrar : Registrar} {s s' : FieldSpace}
    {answer : Except IndexFault Bool} (h : learn i f registrar s = (answer, s')) : Learns i f s answer s' := by
  rw [learn] at h
  cases known : s.defaults.isRegistered (f.request i).registration with
  | true =>
    simp only [known, if_true] at h
    obtain ⟨rfl, rfl⟩ := Prod.mk.inj h
    exact .known known
  | false =>
    simp only [known, Bool.false_eq_true, if_false] at h
    cases asked : registrar s.calls (f.request i) with
    | ok _ =>
      rw [asked] at h
      obtain ⟨rfl, rfl⟩ := Prod.mk.inj h
      exact .new known
    | error cause =>
      rw [asked] at h
      obtain ⟨rfl, rfl⟩ := Prod.mk.inj h
      exact .refused cause known

/-- The second half follows only if the index has just learned of the field. -/
theorem ensureRegistered_run (i : MixedIndex) (f : DefaultField) (registrar : Registrar) (s : FieldSpace) :
    ensureRegistered i f registrar s =
      match learn i f registrar s with
      | (.ok true, learned) => (.ok true, (learned.expire i.id).2)
      | (answer, asked) => (answer, asked) := by
  simp only [ensureRegistered, learn]
  split
  · rfl
  · cases registrar s.calls (f.request i) <;> rfl

end FieldSpace

/-- A cache and a registry in use. -/
structure FieldTraffic where
  space : FieldSpace
  /-- The lookups that missed, each with its names once it has computed them. -/
  lookups : List (OpenLookup × Option FieldNames)
  /-- The indexes that have learned of a field, and whose names are still to be expired for it. -/
  halfDone : List SchemaId

namespace FieldTraffic

/-- A lookup that hits changes nothing, so it is no step. -/
inductive Step (types : Types) (indexes : MixedIndex → Prop) : FieldTraffic → FieldTraffic → Prop where
  | start {t : FieldTraffic} {i : MixedIndex} {l : OpenLookup} : indexes i →
      t.space.cache.start i = .inr l → Step types indexes t { t with lookups := (l, none) :: t.lookups }
  | read {t : FieldTraffic} {l : OpenLookup} {names : FieldNames}
      (before after : List (OpenLookup × Option FieldNames)) : t.lookups = before ++ (l, none) :: after →
      FieldNames.ofIndex types t.space.defaults l.index = .ok names →
      Step types indexes t { t with lookups := before ++ (l, some names) :: after }
  | store {t : FieldTraffic} {l : OpenLookup} {names : FieldNames}
      (before after : List (OpenLookup × Option FieldNames)) :
      t.lookups = before ++ (l, some names) :: after →
      Step types indexes t { t with
        space := { t.space with cache := t.space.cache.finish l names }
        lookups := before ++ after }
  /-- A lookup of an index whose fields have no names ends with a fault. -/
  | abandon {t : FieldTraffic} {l : OpenLookup × Option FieldNames}
      (before after : List (OpenLookup × Option FieldNames)) : t.lookups = before ++ l :: after →
      Step types indexes t { t with lookups := before ++ after }
  | learn {t : FieldTraffic} {i : MixedIndex} {f : DefaultField} (registrar : Registrar)
      {space : FieldSpace} : indexes i → FieldSpace.learn i f registrar t.space = (.ok true, space) →
      Step types indexes t { t with space := space, halfDone := i.id :: t.halfDone }
  /-- The field was known already, or the registrar refused it. -/
  | refuse {t : FieldTraffic} {i : MixedIndex} {f : DefaultField} (registrar : Registrar)
      {answer : Except IndexFault Bool} {space : FieldSpace} : indexes i →
      FieldSpace.learn i f registrar t.space = (answer, space) → answer ≠ .ok true →
      Step types indexes t { t with space := space }
  | settle {t : FieldTraffic} {id : SchemaId} (before after : List SchemaId) :
      t.halfDone = before ++ id :: after →
      Step types indexes t { t with space := (t.space.expire id).2, halfDone := before ++ after }
  | expire {t : FieldTraffic} (id : SchemaId) :
      Step types indexes t { t with space := (t.space.expire id).2 }
  | invalidate {t : FieldTraffic} (store : String) :
      Step types indexes t { t with space := (t.space.invalidate store).2 }

/-- Any number of steps, of whatever callers. -/
abbrev Steps (types : Types) (indexes : MixedIndex → Prop) : FieldTraffic → FieldTraffic → Prop :=
  Relation.ReflTransGen (Step types indexes)

/-- No two indexes share an id, or a name on a store. -/
def Apart (indexes : MixedIndex → Prop) : Prop :=
  ∀ i j, indexes i → indexes j → i.id = j.id ∨ i.store = j.store ∧ i.name = j.name → i = j

/-- The names are those that the index has now, unless a registration of it is half done. -/
def Current (t : FieldTraffic) (types : Types) (i : MixedIndex) (names : FieldNames) : Prop :=
  i.id ∈ t.halfDone ∨ FieldNames.ofIndex types t.space.defaults i = .ok names

/-- What the cache holds is current, and so is what a lookup of this generation will leave there. -/
structure Sound (types : Types) (indexes : MixedIndex → Prop) (t : FieldTraffic) : Prop where
  cached : ∀ id names, t.space.cache.entries.get? id = some names →
    ∃ i, indexes i ∧ i.id = id ∧ t.Current types i names
  opened : ∀ l ∈ t.lookups, indexes l.1.index ∧ l.1.generation ≤ t.space.cache.generation
  computed : ∀ l names, (l, some names) ∈ t.lookups → l.generation = t.space.cache.generation →
    t.Current types l.index names

variable {types : Types} {indexes : MixedIndex → Prop} {t t' : FieldTraffic} {i : MixedIndex}
variable {names : FieldNames}

theorem sound_new (defaults : DefaultFields) : Sound types indexes ⟨.new defaults, [], []⟩ :=
  ⟨nofun, nofun, nofun⟩

theorem learn_ok {s space : FieldSpace} {f : DefaultField} {registrar : Registrar}
    (h : FieldSpace.learn i f registrar s = (.ok true, space)) : space.cache = s.cache ∧
      space.defaults = s.defaults.register ⟨i.store, i.name, f.name⟩ := by
  cases FieldSpace.learns h with
  | new => exact ⟨rfl, rfl⟩

theorem learn_refused {s space : FieldSpace} {f : DefaultField} {registrar : Registrar}
    {answer : Except IndexFault Bool} (h : FieldSpace.learn i f registrar s = (answer, space))
    (refused : answer ≠ .ok true) : space.cache = s.cache ∧ space.defaults = s.defaults := by
  cases FieldSpace.learns h with
  | known => exact ⟨rfl, rfl⟩
  | new => exact absurd rfl refused
  | refused => exact ⟨rfl, rfl⟩

/-- What an index learns leaves the names of the others current, and its own are then half done. -/
theorem Current.learn {f : DefaultField} {space : FieldSpace} {j : MixedIndex} (apart : Apart indexes)
    (one : indexes i) (other : indexes j)
    (learned : space.defaults = t.space.defaults.register ⟨i.store, i.name, f.name⟩)
    (current : t.Current types j names) :
    Current { t with space := space, halfDone := i.id :: t.halfDone } types j names := by
  by_cases same : i = j
  · exact .inl (same ▸ List.mem_cons_self)
  · refine current.imp (List.mem_cons_of_mem _) fun now => ?_
    have foreign : ¬(i.store = j.store ∧ i.name = j.name) := fun here =>
      same (apart i j one other (.inr here))
    rw [learned, FieldNames.ofIndex_register foreign, now]

/-- An expiry of an index leaves the others as they are, whether it ends a registration or not. -/
theorem Current.settle {done : SchemaId} {before after : List SchemaId}
    (shape : t.halfDone = before ++ done :: after) (other : i.id ≠ done) (current : t.Current types i names) :
    Current { t with space := (t.space.expire done).2, halfDone := before ++ after } types i names := by
  refine current.imp (fun half => ?_) id
  rw [shape, List.mem_append, List.mem_cons] at half
  exact List.mem_append.2 (half.imp id fun rest => rest.resolve_left other)

theorem mem_of_mem_without {α : Type} {x y : α} {l before after : List α} (shape : l = before ++ x :: after)
    (there : y ∈ before ++ after) : y ∈ l := by
  rw [shape]
  simp only [List.mem_append, List.mem_cons] at there ⊢
  exact there.imp id .inr

/-- Lookups may go, and one may be there that is of this generation at most and whose names are current. -/
theorem Sound.relist (sound : Sound types indexes t) {lookups : List (OpenLookup × Option FieldNames)}
    (known : ∀ x ∈ lookups, x ∈ t.lookups ∨ indexes x.1.index ∧
      x.1.generation ≤ t.space.cache.generation ∧ ∀ names, x.2 = some names → t.Current types x.1.index names) :
    Sound types indexes { t with lookups := lookups } where
  cached := sound.cached
  opened x there := (known x there).elim (sound.opened x) fun new => ⟨new.1, new.2.1⟩
  computed l names there now :=
    (known _ there).elim (fun old => sound.computed l names old now) fun new => new.2.2 names rfl

/-- A lookup leaves what is current, or nothing. -/
theorem Sound.store (sound : Sound types indexes t) {l : OpenLookup} (there : (l, some names) ∈ t.lookups) :
    Sound types indexes { t with space := { t.space with cache := t.space.cache.finish l names } } := by
  rw [FieldCache.finish]
  split
  · next same =>
    refine ⟨fun id names' held => ?_, sound.opened, sound.computed⟩
    rw [KeyMap.get?_insert] at held
    split at held
    · next here =>
      obtain rfl := Option.some.inj held
      exact ⟨l.index, (sound.opened _ there).1, here.symm, sound.computed l names there same.symm⟩
    · exact sound.cached id names' held
  · exact ⟨sound.cached, sound.opened, sound.computed⟩

/-- What is done to the registry leaves the cache sound if it leaves current names current. -/
theorem Sound.register (sound : Sound types indexes t) {space : FieldSpace} {halfDone : List SchemaId}
    (cache : space.cache = t.space.cache)
    (kept : ∀ j names, indexes j → t.Current types j names →
      Current { t with space := space, halfDone := halfDone } types j names) :
    Sound types indexes { t with space := space, halfDone := halfDone } where
  cached id names held := by
    simp only [cache] at held
    obtain ⟨j, other, named, current⟩ := sound.cached id names held
    exact ⟨j, other, named, kept j names other current⟩
  opened x there := by
    simp only [cache]
    exact sound.opened x there
  computed l names there now := by
    simp only [cache] at now
    exact kept l.index names (sound.opened _ there).1 (sound.computed l names there now)

/-- After an expiry no lookup is of the generation any more. -/
theorem Sound.expired (sound : Sound types indexes t) {space : FieldSpace} {halfDone : List SchemaId}
    (later : space.cache.generation = t.space.cache.generation + 1)
    (kept : ∀ id names, space.cache.entries.get? id = some names → ∃ i, indexes i ∧ i.id = id ∧
      Current { t with space := space, halfDone := halfDone } types i names) :
    Sound types indexes { t with space := space, halfDone := halfDone } where
  cached := kept
  opened l there := by
    obtain ⟨one, old⟩ := sound.opened l there
    exact ⟨one, by simp only [later]; omega⟩
  computed l names there now := by
    have old : l.generation ≤ t.space.cache.generation := (sound.opened _ there).2
    simp only [later] at now
    omega

/-- What is cached after an expiry was there before, and is of another index. -/
theorem cached_of_expire {space : FieldSpace} {id id' : SchemaId}
    (held : (space.expire id).2.cache.entries.get? id' = some names) :
    id' ≠ id ∧ space.cache.entries.get? id' = some names := by
  simp only [FieldSpace.expire, FieldCache.expire] at held
  rw [KeyMap.get?_erase] at held
  split at held
  · cases held
  · next other => exact ⟨other, held⟩

/-- Every step keeps the cache sound. -/
theorem Sound.step (apart : Apart indexes) (sound : Sound types indexes t)
    (step : Step types indexes t t') : Sound types indexes t' := by
  cases step with
  | @start i l one missed =>
    have opened : l = ⟨i, t.space.cache.generation⟩ := by
      rw [FieldCache.start] at missed
      split at missed
      · cases missed
      · exact (Sum.inr.inj missed).symm
    refine sound.relist fun x there => ?_
    rcases List.mem_cons.1 there with rfl | old
    · exact .inr ⟨opened ▸ one, by simp [opened], fun names none => by cases none⟩
    · exact .inl old
  | @read l names before after shape made =>
    obtain ⟨one, generation⟩ := sound.opened (l, none) (by simp [shape])
    refine sound.relist fun x member => ?_
    rcases List.mem_append.1 member with front | back
    · exact .inl (mem_of_mem_without shape (List.mem_append_left _ front))
    · rcases List.mem_cons.1 back with rfl | back
      · exact .inr ⟨one, generation, fun names' same => .inr (Option.some.inj same ▸ made)⟩
      · exact .inl (mem_of_mem_without shape (List.mem_append_right _ back))
  | @store l names before after shape =>
    have there : (l, some names) ∈ t.lookups := by simp [shape]
    exact (sound.store there).relist fun x member => .inl (mem_of_mem_without shape member)
  | abandon before after shape =>
    exact sound.relist fun x member => .inl (mem_of_mem_without shape member)
  | @learn i f registrar space one learned =>
    obtain ⟨cache, defaults⟩ := learn_ok learned
    exact sound.register cache fun j names other current => current.learn apart one other defaults
  | refuse _ _ refused unlearned =>
    obtain ⟨cache, defaults⟩ := learn_refused refused unlearned
    refine sound.register cache fun j names other current => ?_
    simp only [Current, defaults]
    exact current
  | @settle id before after shape =>
    refine sound.expired rfl fun id' names held => ?_
    obtain ⟨other, held⟩ := cached_of_expire held
    obtain ⟨i, one, rfl, current⟩ := sound.cached id' names held
    exact ⟨i, one, rfl, current.settle shape other⟩
  | expire id =>
    exact sound.expired rfl fun id' names held => sound.cached id' names (cached_of_expire held).2
  | invalidate store =>
    refine sound.expired rfl fun id names held => ?_
    simp only [FieldSpace.invalidate, FieldCache.invalidate] at held
    rw [KeyMap.get?_filter] at held
    exact sound.cached id names (Option.filter_eq_some_iff.1 held).1

theorem Steps.sound (apart : Apart indexes) (run : Steps types indexes t t')
    (sound : Sound types indexes t) : Sound types indexes t' := by
  induction run with
  | refl => exact sound
  | tail _ step ih => exact ih.step apart step

/-- No step takes a field or a registration back. -/
theorem Step.extends (step : Step types indexes t t') : t.space.defaults.Extends t'.space.defaults := by
  cases step with
  | learn _ _ learned => exact (learn_ok learned).2 ▸ DefaultFields.extends_register _ _
  | refuse _ _ refused unlearned => exact (learn_refused refused unlearned).2 ▸ .refl _
  | _ => exact .refl _

theorem Steps.extends (run : Steps types indexes t t') : t.space.defaults.Extends t'.space.defaults := by
  induction run with
  | refl => exact .refl _
  | tail _ step ih => exact ih.trans step.extends

/-- What the cache holds for an index of which no registration is half done is what a lookup would compute now:
the names of the declared fields, and behind them those of the fields that the index has learned of. -/
theorem Steps.cached_fresh {defaults : DefaultFields} {id : SchemaId} (apart : Apart indexes)
    (keyed : defaults.Keyed) (run : Steps types indexes ⟨.new defaults, [], []⟩ t)
    (cached : t.space.cache.entries.get? id = some names) (settled : id ∉ t.halfDone) :
    ∃ i, indexes i ∧ i.id = id ∧ FieldNames.ofIndex types t.space.defaults i = .ok names ∧
      names.store = i.store ∧ ∀ key, names.get? key =
        (FieldNames.declared? types i key).or (FieldNames.learned? t.space.defaults i key) := by
  obtain ⟨i, one, rfl, current⟩ := (run.sound apart (sound_new defaults)).cached id names cached
  have now := current.resolve_left settled
  exact ⟨i, one, rfl, now, FieldNames.store_ofIndex now,
    FieldNames.get?_ofIndex (run.extends.keyed keyed) now⟩

/-- An index that declares one field. -/
def yearIndex : MixedIndex :=
  ⟨.ofNat 21, "search", "es", .vertex, [⟨.ofNat 60, .enabled, .default, some "year"⟩], none, .external⟩

def notesField : DefaultField := ⟨.ofNat 70, "notes", .string, .text⟩

/-- The index learns of the notes while a lookup is open, whose names stand in the cache until the registration
is done; a second lookup then leaves both names. -/
theorem Steps.cached_fresh_notes : ∃ (t : FieldTraffic) (names : FieldNames),
    Steps .empty (· = yearIndex) ⟨.new (DefaultFields.empty.insert notesField), [], []⟩ t ∧
    t.space.cache.entries.get? yearIndex.id = some names ∧
    names.names.entries = [(.ofNat 60, "year"), (.ofNat 70, "notes")] ∧
    ∃ i, i = yearIndex ∧ i.id = yearIndex.id ∧
      FieldNames.ofIndex .empty t.space.defaults i = .ok names ∧ names.store = i.store ∧
      ∀ key, names.get? key =
        (FieldNames.declared? .empty i key).or (FieldNames.learned? t.space.defaults i key) := by
  have apart : Apart (· = yearIndex) := fun _ _ one other _ => one.trans other.symm
  have start : Steps .empty (· = yearIndex) ⟨.new (DefaultFields.empty.insert notesField), [], []⟩ _ :=
    .single (.start rfl rfl)
  have read := start.tail (.read [] [] rfl rfl)
  have learned := read.tail (.learn (f := notesField) (fun _ _ => .ok ()) rfl rfl)
  have stale := learned.tail (.store [] [] rfl)
  have settled := stale.tail (.settle [] [] rfl)
  have again := settled.tail (.start rfl rfl)
  have reread := again.tail (.read [] [] rfl rfl)
  have run := reread.tail (.store [] [] rfl)
  exact ⟨_, _, run, rfl, rfl, Steps.cached_fresh apart (DefaultFields.keyed_empty.insert notesField) run rfl nofun⟩

end FieldTraffic

end GraphStore
