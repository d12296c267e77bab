import GraphStore.Proofs.Search.MappingGates
import GraphStore.Proofs.Search.References

/-!
Raw queries and conditions on one index. A reference and a leaf find the field of a key by the same lookup, so
they go to the same field. But only the leaf asks whether the field is in use: a query in the backend's own
language reads a field that no condition is let near.
-/
namespace GraphStore

/-- The pieces of a query. Without a mark it has none but itself. -/
def RawQuery.piecesOf (mark query : String) : List Reference.Piece :=
  match mark.toList with
  | [] => [.text query.toList]
  | first :: others => Reference.pieces first others none query.toList

namespace Translator

open QueryField Condition RawQuery

variable {t : Translator} {i : MixedIndex} {s : FieldSpace} {name field query : String} {fallback : Option String}

/-- A lookup for a reference: a query that cannot be answered is a name that is not known. -/
def asReference : Except IndexFault String → Except IndexFault (Option String)
  | .ok field => .ok (some field)
  | .error (.invalidQuery _) => .ok none
  | .error fault => .error fault

theorem asReference_some_iff {looked : Except IndexFault String} :
    asReference looked = .ok (some field) ↔ looked = .ok field := by
  cases looked with
  | ok name => simp [asReference]
  | error fault => cases fault <;> simp [asReference]

theorem fieldOfName_run {type : RelationType} (known : t.types.named? name = some type) (s : FieldSpace) :
    t.fieldOfName i name s = (asReference (FieldSpace.resolve t.types i type.id s).1,
      (FieldSpace.resolve t.types i type.id s).2) := by
  simp only [fieldOfName, known]
  cases FieldSpace.resolve t.types i type.id s with
  | mk looked u =>
    cases looked with
    | ok name => rfl
    | error fault => cases fault <;> rfl

theorem through_fieldOfName (name : String) : (t.fieldOfName i name).Through (FieldSpace.view t.types i) := by
  cases known : t.types.named? name with
  | none =>
    have still : t.fieldOfName i name = Attempt.lift (.ok none) := by
      funext s
      rw [fieldOfName, known]
      rfl
    rw [still]
    exact .lift _
  | some type =>
    intro s
    have through : (FieldSpace.resolve t.types i type.id).Through (FieldSpace.view t.types i) :=
      FieldSpace.through_resolve type.id
    obtain ⟨kept, alike⟩ := through s
    refine ⟨?_, fun s' seen => ?_⟩
    · rw [fieldOfName_run known]
      exact kept
    · rw [fieldOfName_run known, fieldOfName_run known, alike s' seen]

theorem through_fill (style : ReferenceStyle) (query : String) (ps : List Reference.Piece) :
    (fill style query (t.fieldOfName i) ps).Through (FieldSpace.view t.types i) :=
  fill_composed Attempt.Through.composes through_fieldOfName ps

theorem through_raw (query : String) (fallback : Option String) :
    (t.raw i query fallback).Through (FieldSpace.view t.types i) := by
  refine Attempt.Through.bind ?_ fun _ => .pure _
  rw [substitute]
  split
  · exact .pure _
  · exact (through_fill _ query _).bind fun _ => .pure _

/-- The scan of a query comes to a reference to the name, and the field takes its place. -/
def Replaces (t : Translator) (i : MixedIndex) (query : String) (fallback : Option String) (s : FieldSpace)
    (name field : String) : Prop :=
  ∃ before cs after text u v, piecesOf t.settings.rawQueryPrefix query = before ++ .name cs :: after ∧
    String.ofList cs = name ∧
    Fills ⟨t.settings.rawQueryPrefix, t.settings.wildcardField, fallback⟩ query (t.fieldOfName i) before s text u ∧
    t.fieldOfName i name u = (.ok (some field), v)

/-- In a query that is taken every reference gives way to a field or to the fallback. -/
theorem raw_replaces {r : RawQuery} (taken : (t.raw i query fallback s).1 = .ok r) {cs : List Char}
    (member : .name cs ∈ piecesOf t.settings.rawQueryPrefix query) :
    (∃ field, t.Replaces i query fallback s (String.ofList cs) field) ∨ fallback ≠ none := by
  obtain ⟨before, after, cut⟩ := List.append_of_mem member
  cases mark : t.settings.rawQueryPrefix.toList with
  | nil => simp [piecesOf, mark] at member
  | cons first others =>
    rw [Translator.raw, Attempt.map_run, substitute_run mark] at taken
    obtain ⟨_, made, -⟩ := map_ok_iff.1 taken
    obtain ⟨out, filled, -⟩ := map_ok_iff.1 made
    simp only [piecesOf, mark] at cut
    obtain ⟨text, u, given, v, there, gives⟩ := (fill_ok_iff.1 (Prod.ext (cut ▸ filled) rfl)).reaches
    cases gives with
    | field found =>
      exact .inl ⟨_, before, cs, after, text, u, v, by simp only [piecesOf, mark, cut], rfl, there, found⟩
    | fallback _ spare => exact .inr fun none => by simp [none] at spare

theorem Replaces.resolved (replaces : t.Replaces i query fallback s name field) :
    ∃ type, t.types.named? name = some type ∧ (FieldSpace.resolve t.types i type.id s).1 = .ok field := by
  obtain ⟨before, cs, after, text, u, v, -, -, fills, found⟩ := replaces
  have seen : FieldSpace.view t.types i u = FieldSpace.view t.types i s := by
    rw [← (through_fill _ query before s).1, fill_ok_iff.2 fills]
  cases known : t.types.named? name with
  | none =>
    rw [fieldOfName, known] at found
    cases found
  | some type =>
    refine ⟨type, rfl, ?_⟩
    rw [fieldOfName_run known] at found
    rw [← asReference_some_iff.1 (Prod.mk.inj found).1]
    exact ((FieldSpace.through_resolve type.id s).2 u seen).symm

/-- Conditions and orders ask for the key, and under the field. -/
structure AskedAs (t : Translator) (i : MixedIndex) (s : FieldSpace) (key : SchemaId) (field : String) : Prop where
  /-- A leaf is lowered on the field, and refused at most for its predicate. -/
  leaves : ∃ f, t.Knows i s key f ∧ f.name = field ∧ ∀ p v,
    t.alone i s ⟨key, p, v⟩ = (f.leaf t.settings.stringSuffix p v).map (unsorted i)
  taken : ∃ p v r, t.alone i s ⟨key, p, v⟩ = .ok r
  clauses : ∀ condition order r, (t.request i condition order s).1 = .ok r →
    List.Forall₂ (fun test g => test.key = key → g.name = field ∨ g.name = field ++ t.settings.stringSuffix)
      condition.tests r.query.fieldClauses
  sorts : ∀ condition order r, (t.request i condition order s).1 = .ok r →
    List.Forall₂ (fun o clause => o.key = key →
      clause.field = field ∨ clause.field = field ++ t.settings.stringSuffix) order r.sort

theorem Knows.askedAs {key : SchemaId} {f : QueryField} (knows : t.Knows i s key f) : t.AskedAs i s key f.name where
  leaves := by
    refine ⟨f, knows, rfl, fun p v => ?_⟩
    rw [alone_eq, field_ok_iff.2 knows]
    rfl
  taken := by
    refine ⟨.compare .equal, .int 0, unsorted i (.field (.term f.name (.int 0))), ?_⟩
    rw [alone_eq, field_ok_iff.2 knows]
    rfl
  clauses condition order r made := by
    refine (request_ok made).1.imp fun test g ⟨f', clause, knows', lowers, one⟩ same => ?_
    obtain rfl := (same ▸ knows').unique knows
    exact (lowers.hasName one).imp id And.right
  sorts condition order r made := by
    refine (request_ok made).2.imp fun o clause ⟨f', knows', sorted⟩ same => ?_
    obtain rfl := (same ▸ knows').unique knows
    exact (sort_hasName sorted).imp id And.right

/-- Where the declared field of a key is not in use, no leaf on the key is taken. -/
theorem alone_disabled {key : SchemaId} {g : MixedField}
    (resolved : (FieldSpace.resolve t.types i key s).1 = .ok field)
    (declared : i.field? key = some g) (idle : g.status.isMaintained = false) (p : Predicate) (v : Value) :
    t.alone i s ⟨key, p, v⟩ = .error (.invalidQuery (.fieldDisabled field i.name g.status)) := by
  have refused : mapping s.defaults i key field = .error (.invalidQuery (.fieldDisabled field i.name g.status)) := by
    simp only [mapping, declared, idle, Bool.false_eq_true, if_false]
  rw [alone_eq, field_result, resolved]
  show (((mapping s.defaults i key field).map _ >>= _).map _) = _
  rw [refused]
  rfl

/-- What a reference is replaced by is what the key is asked for under, unless its field is out of use. Then the
reference is replaced all the same, while every leaf on the key is refused. -/
theorem raw_agrees (replaces : t.Replaces i query fallback s name field) :
    ∃ type, t.types.named? name = some type ∧ ∀ s', s' = s ∨ s' = (t.raw i query fallback s).2 →
      ((∀ g, i.field? type.id = some g → g.status.isMaintained = true) → t.AskedAs i s' type.id field) ∧
      ∀ g, i.field? type.id = some g → g.status.isMaintained = false → ∀ p v,
        t.alone i s' ⟨type.id, p, v⟩ = .error (.invalidQuery (.fieldDisabled field i.name g.status)) := by
  obtain ⟨type, known, resolved⟩ := replaces.resolved
  refine ⟨type, known, fun s' when => ?_⟩
  have seen : FieldSpace.view t.types i s' = FieldSpace.view t.types i s := by
    rcases when with rfl | rfl
    · rfl
    · exact (through_raw query fallback s).1
  have later : (FieldSpace.resolve t.types i type.id s').1 = .ok field :=
    ((FieldSpace.through_resolve type.id s).2 s' seen).trans resolved
  refine ⟨fun maintained => ?_, fun g declared idle => alone_disabled later declared idle⟩
  have mapped : ∃ m, mapping s'.defaults i type.id field = .ok m := by
    rw [mapping]
    split
    · next g declared => exact ⟨_, if_pos (maintained g declared)⟩
    · exact ⟨_, rfl⟩
  obtain ⟨m, mapped⟩ := mapped
  obtain ⟨declared, undeclared⟩ := mapping_ok_iff.1 mapped
  have knows : t.Knows i s' type.id ⟨field, m⟩ := ⟨later, declared, undeclared⟩
  exact knows.askedAs

/-- A reference at the start of a query, whatever stands behind it. -/
theorem replaces_bio {i : MixedIndex} {field : String}
    (resolved : (FieldSpace.resolve profileSearch.types i bio.id (.new .empty)).1 = .ok field) :
    profileSearch.Replaces i "v.bio:chess" none (.new .empty) "bio" field := by
  refine ⟨[], "bio".toList, Reference.pieces 'v' ['.'] (some 'o') ":chess".toList, [], .new .empty, _, ?_, rfl, .nil,
    Prod.ext ?_ rfl⟩
  · exact (Reference.pieces_marked none "bio:chess".toList).trans rfl
  · rw [fieldOfName_run (show profileSearch.types.named? "bio" = some bio from rfl)]
    exact asReference_some_iff.2 resolved

theorem raw_agrees_bio : profileSearch.Replaces profiles "v.bio:chess" none (.new .empty) "bio" "bio" ∧
    ∃ type, profileSearch.types.named? "bio" = some type ∧ ∀ s', s' = .new .empty ∨
        s' = (profileSearch.raw profiles "v.bio:chess" none (.new .empty)).2 →
      ((∀ g, profiles.field? type.id = some g → g.status.isMaintained = true) →
        profileSearch.AskedAs profiles s' type.id "bio") ∧
      ∀ g, profiles.field? type.id = some g → g.status.isMaintained = false → ∀ p v,
        profileSearch.alone profiles s' ⟨type.id, p, v⟩ =
          .error (.invalidQuery (.fieldDisabled "bio" profiles.name g.status)) :=
  ⟨replaces_bio rfl, raw_agrees (replaces_bio rfl)⟩

/-- The index with its only field out of use. -/
def oldProfiles : MixedIndex := { profiles with fields := [⟨bio.id, .disabled, .text, none⟩] }

/-- A query in the backend's language reads the field that no condition is let near. -/
theorem raw_reads_disabled : (∃ r, (profileSearch.raw oldProfiles "v.bio:chess" none (.new .empty)).1 = .ok r ∧
      r.query = "bio:chess") ∧
    profileSearch.Replaces oldProfiles "v.bio:chess" none (.new .empty) "bio" "bio" ∧
    profileSearch.types.named? "bio" = some bio ∧ ∀ p v,
      profileSearch.alone oldProfiles (.new .empty) ⟨bio.id, p, v⟩ =
        .error (.invalidQuery (.fieldDisabled "bio" "people" .disabled)) := by
  have cut : Reference.pieces 'v' ['.'] none "v.bio:chess".toList =
      .name "bio".toList :: ":chess".toList.map fun c => .text [c] := by decide +kernel
  refine ⟨⟨⟨"es", "people", "bio:chess", 0, none⟩, ?_, rfl⟩, replaces_bio rfl, rfl,
    alone_disabled (g := ⟨bio.id, .disabled, .text, none⟩) rfl rfl rfl⟩
  rw [Translator.raw, Attempt.map_run, substitute_run (show "v.".toList = 'v' :: ['.'] from rfl), cut]
  rfl

end Translator

end GraphStore
