import GraphStore.Search.Request

/-!
How a leaf of a condition is lowered on its field. Strings go by the mapping: predicates on the whole string to the
field that keeps it as it stands, those on words to analyzed text. What is no string goes by the value. A leaf that
is taken becomes a comparison, a clause on text or a distance.
-/
namespace GraphStore.QueryField

variable {f : QueryField} {suffix : String} {p : Predicate} {v : Value} {clause : Clause}

/-- The field that keeps whole strings: the key's own, or the twin of analyzed text. -/
def wholeName (f : QueryField) (suffix : String) : String :=
  if f.mapping = .textString then f.name ++ suffix else f.name

theorem exactName?_eq_some_iff {name : String} :
    f.exactName? suffix = some name ↔ f.mapping.isExact = true ∧ name = f.wholeName suffix := by
  cases m : f.mapping <;> simp [exactName?, wholeName, Mapping.isExact, m, eq_comm]

theorem exactName?_eq_none_iff : f.exactName? suffix = none ↔ f.mapping.isExact = false := by
  cases m : f.mapping <;> simp [exactName?, Mapping.isExact, m]

/-- The clauses that a leaf can be lowered to. -/
inductive Lowers (f : QueryField) (suffix : String) : Predicate → Value → Clause → Prop
  | whole {c : Comparison} {s : String} : f.mapping.isExact = true →
      Lowers f suffix (.compare c) (.string s) (compare (f.wholeName suffix) c (.string s))
  | ordering {c : Comparison} {s : String} : f.mapping.isExact = false → c.isOrdering = true →
      Lowers f suffix (.compare c) (.string s) (compare f.name c (.string s))
  | worth {c : Comparison} {v : Value} : v.dataType ≠ .string →
      (isOrdered v || isDiscrete v && !c.isOrdering) = true →
      Lowers f suffix (.compare c) v (compare f.name c v.searchForm)
  | words {t : TextPredicate} {s : String} : t.isContains = true → f.mapping.isAnalyzed = true →
      Lowers f suffix (.text t) (.string s) (.field (textClause f.name t s))
  | pattern {t : TextPredicate} {s : String} : t.isContains = false → f.mapping.isExact = true →
      Lowers f suffix (.text t) (.string s) (.field (textClause (f.wholeName suffix) t s))
  | within {km lat lon : Binary64} : km.isFinite = true → km.isBelowZero = false →
      Lowers f suffix (.within km) (.geo lat lon) (.field (.distance f.name km lat lon))

theorem stringLeaf_ok_iff {s : String} :
    f.stringLeaf suffix p s = .ok clause ↔ Lowers f suffix p (.string s) clause := by
  constructor
  · intro h
    cases p with
    | within km => cases h
    | compare c =>
      simp only [stringLeaf] at h
      split at h
      · next name exact =>
        obtain ⟨held, rfl⟩ := exactName?_eq_some_iff.1 exact
        cases h
        exact .whole held
      · next exact =>
        split at h
        · next order =>
          cases h
          exact .ordering (exactName?_eq_none_iff.1 exact) order
        · cases h
    | text t =>
      simp only [stringLeaf] at h
      split at h
      · next contains =>
        split at h
        · next analyzed =>
          cases h
          exact .words contains analyzed
        · cases h
      · next pattern =>
        split at h
        · next name exact =>
          obtain ⟨held, rfl⟩ := exactName?_eq_some_iff.1 exact
          cases h
          exact .pattern (by simpa using pattern) held
        · cases h
  · intro lowers
    cases lowers with
    | whole held => simp only [stringLeaf, exactName?_eq_some_iff.2 ⟨held, rfl⟩]
    | ordering lacks order => simp only [stringLeaf, exactName?_eq_none_iff.2 lacks, order, if_true]
    | worth other => exact absurd rfl other
    | words contains analyzed => simp only [stringLeaf, contains, analyzed, if_true]
    | pattern pattern held =>
      simp only [stringLeaf, pattern, exactName?_eq_some_iff.2 ⟨held, rfl⟩, Bool.false_eq_true, if_false]

/-- A comparison with what is no string goes by the value, and the mapping plays no part. -/
theorem leaf_compare {c : Comparison} (other : v.dataType ≠ .string) : f.leaf suffix (.compare c) v =
    if isOrdered v || isDiscrete v && !c.isOrdering then .ok (compare f.name c v.searchForm)
    else .error (.invalidQuery (.predicateMismatch (.compare c) v.dataType f.name)) := by
  cases v with
  | string => exact absurd rfl other
  | _ => rfl

theorem leaf_ok_iff : f.leaf suffix p v = .ok clause ↔ Lowers f suffix p v clause := by
  by_cases string : v.dataType = .string
  · cases v <;> simp only [Value.dataType, reduceCtorEq] at string
    exact stringLeaf_ok_iff
  constructor
  · intro h
    cases p with
    | compare c =>
      rw [leaf_compare string] at h
      split at h
      · next taken =>
        cases h
        exact .worth string taken
      · cases h
    | text t =>
      cases v with
      | string => exact absurd rfl string
      | _ => cases h
    | within km =>
      cases v with
      | string => exact absurd rfl string
      | geo lat lon =>
        simp only [leaf] at h
        split at h
        · next taken =>
          cases h
          obtain ⟨finite, positive⟩ := Bool.and_eq_true_iff.1 taken
          exact .within finite (by simpa using positive)
        · cases h
      | _ => cases h
  · intro lowers
    cases lowers with
    | worth other taken => rw [leaf_compare other, if_pos taken]
    | within finite positive => simp [leaf, finite, positive]
    | _ => exact absurd rfl string

/-- The name belongs to the field: it is its own, or that of its exact twin. -/
def HasName (f : QueryField) (suffix name : String) : Prop :=
  name = f.name ∨ f.mapping = .textString ∧ name = f.name ++ suffix

theorem hasName_wholeName (f : QueryField) (suffix : String) : f.HasName suffix (f.wholeName suffix) := by
  rw [wholeName]
  split
  · next both => exact .inr ⟨both, rfl⟩
  · exact .inl rfl

/-- A leaf is lowered to a comparison, to a clause on text or to a distance. -/
theorem Lowers.form (lowers : f.Lowers suffix p v clause) :
    (∃ c name, p = .compare c ∧ f.HasName suffix name ∧ clause = compare name c v.searchForm) ∨
      (∃ q s name, p = .text q ∧ f.HasName suffix name ∧ clause = .field (textClause name q s) ∧
        if q.isContains then f.mapping.isAnalyzed = true ∧ name = f.name
        else f.mapping.isExact = true ∧ name = f.wholeName suffix) ∨
      ∃ km lat lon, p = .within km ∧ v = .geo lat lon ∧ km.isFinite = true ∧
        clause = .field (.distance f.name km lat lon) := by
  cases lowers with
  | whole => exact .inl ⟨_, _, rfl, hasName_wholeName .., rfl⟩
  | ordering | worth => exact .inl ⟨_, _, rfl, .inl rfl, rfl⟩
  | words contains analyzed =>
    exact .inr (.inl ⟨_, _, _, rfl, .inl rfl, rfl, by simp only [contains, analyzed, if_true, and_self]⟩)
  | pattern pattern exact =>
    refine .inr (.inl ⟨_, _, _, rfl, hasName_wholeName .., rfl, ?_⟩)
    simp only [pattern, exact, Bool.false_eq_true, if_false, and_self]
  | within finite => exact .inr (.inr ⟨_, _, _, rfl, rfl, finite, rfl⟩)

/-- All comparisons but `≠` are one clause on a field. -/
theorem compare_field {c : Comparison} (name : String) (j : Json) (other : c ≠ .notEqual) :
    ∃ g, compare name c j = .field g := by
  cases c with
  | notEqual => exact absurd rfl other
  | _ => exact ⟨_, rfl⟩

/-- A `≠` is the negation of the clause for `=`, and is taken just if that one is. -/
theorem leaf_notEqual_iff : f.leaf suffix (.compare .notEqual) v = .ok clause ↔
    ∃ g, f.leaf suffix (.compare .equal) v = .ok (.field g) ∧ clause = .not (.field g) := by
  simp only [leaf_ok_iff]
  constructor
  · intro lowers
    cases lowers with
    | whole exact => exact ⟨_, .whole exact, rfl⟩
    | ordering _ order => cases order
    | worth other taken => exact ⟨_, .worth other taken, rfl⟩
  · rintro ⟨g, lowers, rfl⟩
    cases lowers with
    | whole exact => exact .whole exact
    | ordering _ order => cases order
    | worth other taken => exact .worth other taken

/-- Every leaf but a `≠` is one clause on a field. -/
theorem leaf_field (other : p ≠ .compare .notEqual) (h : f.leaf suffix p v = .ok clause) :
    ∃ g, clause = .field g := by
  obtain ⟨c, name, rfl, -, rfl⟩ | ⟨q, s, name, -, -, rfl, -⟩ | ⟨km, lat, lon, -, -, -, rfl⟩ := (leaf_ok_iff.1 h).form
  · exact compare_field name _ fun differs => other (congrArg _ differs)
  · exact ⟨_, rfl⟩
  · exact ⟨_, rfl⟩

end GraphStore.QueryField
