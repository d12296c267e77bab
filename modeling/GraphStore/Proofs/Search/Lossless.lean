import GraphStore.Proofs.Decimal.Notation
import GraphStore.Proofs.Search.MappingGates
import GraphStore.Proofs.Value.SearchForm

/-!
What can be read off the clause of a leaf. A clause names its field and says what is asked of it, so where the
names of an index are apart, also from those of the exact twins, a clause tells the key and the predicate of its
leaf, and for comparisons and distances the value as well, as far as a search backend can tell values apart.
-/
namespace GraphStore

namespace FieldClause

/-- What a clause asks, in the backend's words. -/
def kind : FieldClause → String
  | term .. => "term"
  | range .. => "range"
  | words .. => "match"
  | phrase .. => "match_phrase"
  | startsWith .. => "prefix"
  | regexp .. => "regexp"
  | fuzzy .. => "fuzzy"
  | distance .. => "geo_distance"

/-- What a clause looks for in its field. -/
def operand : FieldClause → Json
  | term _ v => v
  | range _ side v => .object [(side.word, v)]
  | words _ s loose => .object ((if loose then [("fuzziness", .string "AUTO")] else []) ++
      [("operator", .string "and"), ("query", .string s)])
  | phrase _ s | startsWith _ s | regexp _ s => .string s
  | fuzzy _ s => .object [("fuzziness", .string "AUTO"), ("value", .string s)]
  | distance _ _ lat lon => .array [.ofFloat lon, .ofFloat lat]

/-- The fields under the word of a clause: its own field, and for a distance the distance, in order of names. -/
def body (g : FieldClause) : List (String × Json) :=
  match g with
  | distance f km _ _ =>
    if f < "distance" then [(f, g.operand), ("distance", .string (Decimal.plain.text km ++ "km"))]
    else [("distance", .string (Decimal.plain.text km ++ "km")), (f, g.operand)]
  | g => [(g.name, g.operand)]

/-- No field is in the way of the distance. -/
def Clear : FieldClause → Prop
  | distance f .. => f ≠ "distance"
  | _ => True

theorem toJson_eq {g : FieldClause} (clear : g.Clear) : g.toJson = .object [(g.kind, .object g.body)] := by
  cases g with
  | words f s loose =>
    have operator : "operator" < "query" := by decide
    have fuzziness : "fuzziness" < "operator" := by decide
    cases loose <;> simp [toJson, one, Json.record, Json.insertField, matchOptions, kind, body, operand, name,
      operator, fuzziness]
  | fuzzy f s =>
    have fuzziness : "fuzziness" < "value" := by decide
    simp [toJson, one, Json.record, Json.insertField, kind, body, operand, name, fuzziness]
  | distance f km lat lon =>
    have apart : f ≠ "distance" := clear
    simp only [toJson, one, Json.record, List.foldl, Json.insertField, if_neg apart, kind, body, operand]
  | _ => rfl

/-- The clauses ask the same. -/
def Alike : FieldClause → FieldClause → Prop
  | term f v, term f' v' => f = f' ∧ v.Same v'
  | range f side v, range f' side' v' => f = f' ∧ side = side' ∧ v.Same v'
  | words f s loose, words f' s' loose' => f = f' ∧ s = s' ∧ loose = loose'
  | phrase f s, phrase f' s' | startsWith f s, startsWith f' s' | regexp f s, regexp f' s'
  | fuzzy f s, fuzzy f' s' => f = f' ∧ s = s'
  | distance f km lat lon, distance f' km' lat' lon' =>
    f = f' ∧ Decimal.plain.text km = Decimal.plain.text km' ∧ (Json.ofFloat lat).Same (.ofFloat lat') ∧
      (Json.ofFloat lon).Same (.ofFloat lon')
  | _, _ => False

theorem alike_of_same {g g' : FieldClause} (clear : g.Clear) (clear' : g'.Clear)
    (same : g.toJson.Same g'.toJson) : g.Alike g' := by
  rw [toJson_eq clear, toJson_eq clear'] at same
  obtain ⟨sort, parts, -⟩ := same.fields
  -- clauses of two kinds differ in their first word already
  cases g <;> cases g' <;> first | exact absurd sort (of_decide_eq_false rfl) | simp only [body] at parts
  case distance.distance f km lat lon f' km' lat' lon' =>
    have unit {s s' : String} (alike : (Json.string (s ++ "km")).Same (.string (s' ++ "km"))) : s = s' :=
      String.append_left_inj "km" |>.1 alike.string_inj
    split at parts <;> split at parts <;> obtain ⟨first, here, parts⟩ := parts.fields <;>
      obtain ⟨second, there, -⟩ := parts.fields
    · exact ⟨first, unit there, here.items.2.items.1, here.items.1⟩
    · exact absurd first clear
    · exact absurd first.symm clear'
    · exact ⟨second, unit here, there.items.2.items.1, there.items.1⟩
  all_goals
    obtain ⟨field, looked, -⟩ := parts.fields
    simp only [operand] at looked
  case term.term => exact ⟨field, looked⟩
  case range.range side _ _ side' _ =>
    obtain ⟨word, bound, -⟩ := looked.fields
    refine ⟨field, ?_, bound⟩
    cases side <;> cases side' <;> first | rfl | exact absurd word (by decide)
  case words.words s loose _ s' loose' =>
    cases loose <;> cases loose' <;> simp only [if_true, Bool.false_eq_true, if_false, List.nil_append,
      List.cons_append] at looked
    · exact ⟨field, looked.fields.2.2.fields.2.1.string_inj, rfl⟩
    · exact absurd looked.fields.1 (by decide)
    · exact absurd looked.fields.1 (by decide)
    · exact ⟨field, looked.fields.2.2.fields.2.2.fields.2.1.string_inj, rfl⟩
  case fuzzy.fuzzy => exact ⟨field, looked.fields.2.2.fields.2.1.string_inj⟩
  all_goals exact ⟨field, looked.string_inj⟩

end FieldClause

namespace Clause

/-- The clause of a leaf, no field of which is in the way of a distance. -/
def Clear : Clause → Prop
  | field g | not (field g) => g.Clear
  | _ => False

/-- The clauses of leaves ask the same. -/
def Alike : Clause → Clause → Prop
  | field g, field g' | not (field g), not (field g') => g.Alike g'
  | _, _ => False

theorem alike_of_same : ∀ {c c' : Clause}, c.Clear → c'.Clear → c.toJson.Same c'.toJson → c.Alike c'
  | field _, field _, clear, clear', same => FieldClause.alike_of_same clear clear' same
  | not (field _), not (field _), clear, clear', same =>
    FieldClause.alike_of_same clear clear' same.fields.2.1.fields.2.1.items.1
  | field g, not (field _), clear, _, same => by
    rw [show (field g).toJson = g.toJson from rfl, FieldClause.toJson_eq clear] at same
    cases g <;> exact absurd same.fields.1 (of_decide_eq_false rfl)
  | not (field _), field g, _, clear, same => by
    rw [show (field g).toJson = g.toJson from rfl, FieldClause.toJson_eq clear] at same
    cases g <;> exact absurd same.fields.1 (of_decide_eq_false rfl)

end Clause

namespace QueryField

variable {f f' : QueryField} {suffix : String} {p p' : Predicate} {v v' : Value} {clause clause' : Clause}

theorem compare_alike {name name' : String} {c c' : Comparison} {j j' : Json}
    (alike : (compare name c j).Alike (compare name' c' j')) : name = name' ∧ c = c' ∧ j.Same j' := by
  cases c <;> cases c' <;> simp_all [compare, Clause.Alike, FieldClause.Alike]

/-- Predicates on words and on the whole string are told apart only by their fields. -/
theorem textClause_alike {name name' : String} {q q' : TextPredicate} {s s' : String}
    (alike : (textClause name q s).Alike (textClause name' q' s')) :
    name = name' ∧ (q.isContains = q'.isContains → q = q') := by
  cases q <;> cases q' <;> simp_all [textClause, FieldClause.Alike, TextPredicate.isContains]

theorem Lowers.clear (lowers : f.Lowers suffix p v clause) (clear : ∀ km, p = .within km → f.name ≠ "distance") :
    clause.Clear := by
  obtain ⟨c, _, -, -, rfl⟩ | ⟨q, _, _, -, -, rfl, -⟩ | ⟨km, _, _, within, -, -, rfl⟩ := lowers.form
  · cases c <;> trivial
  · cases q <;> trivial
  · exact clear km within

/-- What two leaves with clauses that ask the same have in common. -/
theorem Lowers.common (lowers : f.Lowers suffix p v clause) (lowers' : f'.Lowers suffix p' v' clause')
    (alike : clause.Alike clause') : (∃ name, f.HasName suffix name ∧ f'.HasName suffix name) ∧
      (f = f' → (f.mapping = .textString → f.name ++ suffix ≠ f.name) → p = p') ∧
      ((∀ q, p ≠ .text q) → v.Blurs v') := by
  obtain ⟨c, name, rfl, has, rfl⟩ | ⟨q, s, name, rfl, has, rfl, gate⟩ | ⟨km, lat, lon, rfl, rfl, finite, rfl⟩ :=
    lowers.form <;>
  obtain ⟨c', name', rfl, has', rfl⟩ | ⟨q', s', name', rfl, has', rfl, gate'⟩ |
      ⟨km', lat', lon', rfl, rfl, finite', rfl⟩ := lowers'.form
  · obtain ⟨rfl, rfl, same⟩ := compare_alike alike
    exact ⟨⟨name, has, has'⟩, fun _ _ => rfl,
      fun _ => (Value.searchForm_equals_iff v v').1 (same.equals v.searchForm_equals_self)⟩
  · cases c <;> cases q' <;> exact alike.elim
  · cases c <;> exact alike.elim
  · cases c' <;> cases q <;> exact alike.elim
  · obtain ⟨rfl, told⟩ := textClause_alike alike
    refine ⟨⟨name, has, has'⟩, fun one apart => ?_, fun other => absurd rfl (other q)⟩
    subst one
    -- a predicate on words and one on the whole string have one clause only where a twin has its field's own name
    have twin (analyzed : f.mapping.isAnalyzed = true) (exact : f.mapping.isExact = true) :
        f.name ≠ f.wholeName suffix := by
      have both : f.mapping = .textString := by
        cases m : f.mapping <;> simp [m, Mapping.isAnalyzed, Mapping.isExact] at analyzed exact ⊢
      rw [wholeName, if_pos both]
      exact (apart both).symm
    refine congrArg _ (told ?_)
    cases words : q.isContains <;> cases words' : q'.isContains <;>
      simp only [words, words', Bool.false_eq_true, if_true, if_false] at gate gate' <;> try rfl
    · exact absurd (gate'.2.symm.trans gate.2) (twin gate'.1 gate.1)
    · exact absurd (gate.2.symm.trans gate'.2) (twin gate.1 gate'.1)
  · cases q <;> exact alike.elim
  · cases c' <;> exact alike.elim
  · cases q' <;> exact alike.elim
  · obtain ⟨name, text, north, east⟩ := alike
    obtain rfl := Decimal.plain_text_inj finite finite' text
    have blurs {x y : Binary64} (same : (Json.ofFloat x).Same (.ofFloat y)) : x.Blurs y :=
      (Json.ofFloat_equals_iff x y).1 (same.equals (Json.ofFloat_equals_self x))
    exact ⟨⟨_, .inl rfl, .inl name⟩, fun _ _ => rfl, fun _ => ⟨blurs north, blurs east⟩⟩

end QueryField

namespace Translator

open QueryField Condition

variable {t : Translator} {i : MixedIndex} {s : FieldSpace}

/-- The names that an index uses are apart, those of exact twins included. -/
structure NamesApart (t : Translator) (i : MixedIndex) (s : FieldSpace) : Prop where
  own : ∀ {key key' : SchemaId} {f f' : QueryField}, t.Knows i s key f → t.Knows i s key' f' →
    f.name = f'.name → key = key'
  twin : ∀ {key key' : SchemaId} {f f' : QueryField}, t.Knows i s key f → t.Knows i s key' f' →
    f.mapping = .textString → f.name ++ t.settings.stringSuffix ≠ f'.name

theorem NamesApart.key_eq (apart : t.NamesApart i s) {key key' : SchemaId} {f f' : QueryField} {name : String}
    (knows : t.Knows i s key f) (knows' : t.Knows i s key' f') (has : f.HasName t.settings.stringSuffix name)
    (has' : f'.HasName t.settings.stringSuffix name) : key = key' := by
  obtain rfl | ⟨both, rfl⟩ := has <;> obtain same | ⟨both', same⟩ := has'
  · exact apart.own knows knows' same
  · exact absurd same.symm (apart.twin knows' knows both')
  · exact absurd same (apart.twin knows knows' both)
  · exact apart.own knows knows' (String.append_left_inj _ |>.1 same)

/-- A leaf asks for a distance from a place that is kept under the name of the distance. -/
def Obscures (t : Translator) (i : MixedIndex) (s : FieldSpace) (test : Test) : Prop :=
  (∃ km, test.predicate = .within km) ∧ ∃ f, t.Knows i s test.key f ∧ f.name = "distance"

/-- The clause of a leaf has something to compare with, and for a distance both the distance and the place. -/
structure Holds (t : Translator) (i : MixedIndex) (s : FieldSpace) (test : Test) (g : FieldClause) : Prop where
  operand : ∀ name j, (g = .term name j ∨ ∃ side, g = .range name side j) →
    (j = .null ↔ ∃ x, test.value = .float x ∧ x.isFinite = false)
  place : ∀ name km lat lon, g = .distance name km lat lon → test.predicate = .within km ∧
    test.value = .geo lat lon ∧ (∃ f, t.Knows i s test.key f ∧ f.name = name) ∧
    (name ≠ "distance" → ∃ fields, g.toJson = .object [("geo_distance", .object fields)] ∧
      fields.Perm [("distance", .string (Decimal.plain.text km ++ "km")),
        (name, .array [.ofFloat lon, .ofFloat lat])])

theorem searchForm_eq_null_iff (v : Value) : v.searchForm = .null ↔ ∃ x, v = .float x ∧ x.isFinite = false := by
  cases v with
  | float x =>
    rw [Value.searchForm, Json.ofFloat]
    by_cases finite : x.isFinite = true <;> simp [finite]
  | _ => simp [Value.searchForm]

theorem Becomes.holds {test : Test} {g : FieldClause} (becomes : t.Becomes i s test g) : t.Holds i s test g := by
  obtain ⟨f, clause, knows, lowers, one⟩ := becomes
  obtain ⟨c, name, compares, -, rfl⟩ | ⟨q, _, name, -, -, rfl, -⟩ | ⟨km, lat, lon, within, place, -, rfl⟩ :=
    lowers.form
  · refine ⟨fun name' j asks => ?_, fun name' km lat lon asks => ?_⟩
    · have operand : j = test.value.searchForm := by
        cases c <;> obtain rfl := List.singleton_inj.1 one <;> obtain same | ⟨_, same⟩ := asks <;> cases same <;> rfl
      rw [operand, searchForm_eq_null_iff]
    · subst asks
      cases c <;> cases List.singleton_inj.1 one
  · obtain rfl := List.singleton_inj.1 one
    refine ⟨fun _ _ asks => ?_, fun _ _ _ _ asks => ?_⟩
    · obtain same | ⟨_, same⟩ := asks <;> cases q <;> cases same
    · cases q <;> cases asks
  · obtain rfl := List.singleton_inj.1 one
    refine ⟨fun _ _ asks => ?_, fun name km' lat' lon' asks => ?_⟩
    · obtain same | ⟨_, same⟩ := asks <;> cases same
    · obtain ⟨rfl, rfl, rfl, rfl⟩ := FieldClause.distance.inj asks
      refine ⟨within, place, ⟨f, knows, rfl⟩, fun clear => ⟨_, FieldClause.toJson_eq clear, ?_⟩⟩
      rw [FieldClause.body]
      split
      · exact .swap ..
      · exact .refl _

/-- What lowering keeps of leaves. -/
structure Lossless (t : Translator) (i : MixedIndex) (s : FieldSpace) : Prop where
  /-- Two leaves with one clause have one key and one predicate, and where it compares or measures, values that the
  backend cannot tell apart. -/
  tells : ∀ a b ra rb, t.alone i s a = .ok ra → t.alone i s b = .ok rb → ¬t.Obscures i s a → ¬t.Obscures i s b →
    ra.query.toJson.Same rb.query.toJson →
      a.key = b.key ∧ a.predicate = b.predicate ∧ ((∀ q, a.predicate ≠ .text q) → a.value.Blurs b.value)
  holds : ∀ condition order r, (t.request i condition order s).1 = .ok r →
    List.Forall₂ (t.Holds i s) condition.tests r.query.fieldClauses

theorem alone_ok {test : Test} {r : SearchRequest} (made : t.alone i s test = .ok r) :
    ∃ f clause, t.Knows i s test.key f ∧ f.Lowers t.settings.stringSuffix test.predicate test.value clause ∧
      r.query = clause := by
  rw [alone_eq] at made
  obtain ⟨clause, taken, rfl⟩ := map_ok_iff.1 made
  obtain ⟨f, found, taken⟩ := bind_ok_iff.1 taken
  exact ⟨f, clause, field_ok_iff.1 found, leaf_ok_iff.1 taken, rfl⟩

/-- Where names are apart, no leaf is lowered to the clause of another one. -/
theorem lower_lossless (apart : t.NamesApart i s) : t.Lossless i s where
  tells a b ra rb made made' shown shown' same := by
    obtain ⟨f, clause, knows, lowers, rfl⟩ := alone_ok made
    obtain ⟨f', clause', knows', lowers', rfl⟩ := alone_ok made'
    have clear := lowers.clear fun km within named => shown ⟨⟨km, within⟩, f, knows, named⟩
    have clear' := lowers'.clear fun km within named => shown' ⟨⟨km, within⟩, f', knows', named⟩
    obtain ⟨⟨name, has, has'⟩, predicate, value⟩ := lowers.common lowers' (Clause.alike_of_same clear clear' same)
    have key := apart.key_eq knows knows' has has'
    refine ⟨key, predicate ?_ fun both => apart.twin knows knows both, value⟩
    exact knows.unique (key ▸ knows')
  holds condition order r made := (request_ok made).1.imp fun _ _ becomes => becomes.holds

/-- Where somebody lives. -/
def home : RelationType := .propertyKey (.ofNat 24) "home" .geo

def residents : MixedIndex :=
  { profiles with fields := [⟨bio.id, .enabled, .textString, none⟩, ⟨home.id, .enabled, .default, none⟩] }

def residentSearch : Translator := ⟨.overlay (.ofList [(bio.id, bio), (home.id, home)]) .empty, .default⟩

theorem residents_knows {key : SchemaId} {f : QueryField}
    (knows : residentSearch.Knows residents (.new .empty) key f) :
    key = bio.id ∧ f = ⟨"bio", .textString⟩ ∨ key = home.id ∧ f = ⟨"home", .default⟩ := by
  by_cases home' : key = home.id
  · subst home'
    exact .inr ⟨rfl, knows.unique (field_ok_iff.1 rfl)⟩
  by_cases bio' : key = bio.id
  · subst bio'
    exact .inl ⟨rfl, knows.unique (field_ok_iff.1 rfl)⟩
  obtain ⟨s', names⟩ : ∃ s', FieldSpace.names residentSearch.types residents (.new .empty) =
      (.ok ⟨"es", (KeyMap.empty.insert bio.id "bio").insert home.id "home"⟩, s') := ⟨_, rfl⟩
  have named := knows.named
  rw [FieldSpace.resolve, Attempt.bind_run_ok names] at named
  simp only [FieldNames.get?, KeyMap.get?_insert, home', bio', if_false] at named
  cases named

theorem residents_namesApart : residentSearch.NamesApart residents (.new .empty) where
  own knows knows' same := by
    obtain ⟨rfl, rfl⟩ | ⟨rfl, rfl⟩ := residents_knows knows <;>
      obtain ⟨rfl, rfl⟩ | ⟨rfl, rfl⟩ := residents_knows knows' <;>
      first | rfl | exact absurd same (by decide)
  twin knows knows' both := by
    obtain ⟨rfl, rfl⟩ | ⟨rfl, rfl⟩ := residents_knows knows
    · obtain ⟨rfl, rfl⟩ | ⟨rfl, rfl⟩ := residents_knows knows' <;> decide
    · cases both

theorem lower_lossless_residents : residentSearch.NamesApart residents (.new .empty) ∧
    residentSearch.Lossless residents (.new .empty) :=
  ⟨residents_namesApart, lower_lossless residents_namesApart⟩

/-- A number, a text with an exact twin, a name that is taken by that twin, and a place under the name of a
distance. -/
def collisionKeys : List RelationType :=
  [.propertyKey (.ofNat 15) "degrees" .float, bio, .propertyKey (.ofNat 21) "bio__STRING" .string,
    .propertyKey (.ofNat 24) "distance" .geo]

def collisions : MixedIndex :=
  { profiles with fields := [⟨.ofNat 15, .enabled, .default, none⟩, ⟨bio.id, .enabled, .textString, none⟩,
      ⟨.ofNat 21, .enabled, .string, none⟩, ⟨.ofNat 24, .enabled, .default, none⟩] }

def collisionSearch : Translator :=
  ⟨.overlay (.ofList (collisionKeys.map fun key => (key.id, key))) .empty, .default⟩

/-- Two leaves have one clause. -/
def Collide (a b : Test) (clause : Json) : Prop :=
  ∃ ra rb, collisionSearch.alone collisions (.new .empty) a = .ok ra ∧
    collisionSearch.alone collisions (.new .empty) b = .ok rb ∧ ra.query.toJson = clause ∧ rb.query.toJson = clause

/-- Both infinities are looked up as nothing; a twin has the name of another key's field; and a place takes the
stead of the distance. -/
theorem lower_collisions :
    (Value.equals (.float ⟨0x7ff0000000000000⟩) (.float ⟨0xfff0000000000000⟩) = false ∧
      (⟨0x7ff0000000000000⟩ : Binary64).isNaN = false ∧ (⟨0xfff0000000000000⟩ : Binary64).isNaN = false ∧
      Collide ⟨.ofNat 15, .compare .equal, .float ⟨0x7ff0000000000000⟩⟩
        ⟨.ofNat 15, .compare .equal, .float ⟨0xfff0000000000000⟩⟩
        (.object [("term", .object [("degrees", .null)])])) ∧
    Collide ⟨bio.id, .compare .equal, .string "x"⟩ ⟨.ofNat 21, .compare .equal, .string "x"⟩
      (.object [("term", .object [("bio__STRING", .string "x")])]) ∧
    Collide ⟨.ofNat 24, .within ⟨0x4014000000000000⟩, .geo ⟨0x4044000000000000⟩ ⟨0x4029000000000000⟩⟩
      ⟨.ofNat 24, .within ⟨0x4018000000000000⟩, .geo ⟨0x4044000000000000⟩ ⟨0x4029000000000000⟩⟩
      (.object [("geo_distance", .object [("distance",
        .array [.float ⟨0x4029000000000000⟩, .float ⟨0x4044000000000000⟩])])]) :=
  ⟨⟨by decide, by decide, by decide, _, _, rfl, rfl, rfl, rfl⟩, ⟨_, _, rfl, rfl, rfl, rfl⟩,
    ⟨_, _, rfl, rfl, rfl, rfl⟩⟩

end Translator

end GraphStore
