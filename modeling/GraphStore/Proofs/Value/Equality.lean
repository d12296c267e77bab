import GraphStore.Json
import GraphStore.Value
import Mathlib.Tactic.Common

/-!
Equality of values, and of JSON values, by worth: both zeros are one number, and what is not a number is not
even itself. Otherwise it is an equality like others, so what is the same is equal to the same.
-/
namespace GraphStore

theorem Binary64.equals_comm (x y : Binary64) : x.equals y = y.equals x := by
  simp [equals, Bool.and_comm, eq_comm]

theorem Binary64.equals_trans {x y z : Binary64} (h : x.equals y = true) (h' : y.equals z = true) :
    x.equals z = true := by
  have worth {a b : Binary64} (same : a.bits = b.bits) : a.isZero = b.isZero := by
    rw [isZero, isZero, magnitude, magnitude, same]
  simp only [equals, Bool.and_eq_true, Bool.or_eq_true, decide_eq_true_eq] at *
  obtain ⟨⟨number, -⟩, left⟩ := h
  obtain ⟨⟨-, number'⟩, right⟩ := h'
  refine ⟨⟨number, number'⟩, ?_⟩
  obtain same | ⟨zero, zero'⟩ := left <;> obtain same' | ⟨zero'', zero'''⟩ := right
  · exact .inl (same.trans same')
  · exact .inr ⟨(worth same).trans zero'', zero'''⟩
  · exact .inr ⟨zero, (worth same').symm.trans zero'⟩
  · exact .inr ⟨zero, zero'''⟩

/-- Zeros have one sign. Only they can be equal without being the same. -/
def Binary64.SameZero (x y : Binary64) : Prop :=
  x.isZero = true → y.isZero = true → x.negative = y.negative

theorem Binary64.eq_iff_sameZero {x y : Binary64} (h : x.equals y = true) : x = y ↔ x.SameZero y := by
  refine ⟨fun same _ _ => same ▸ rfl, fun signs => ?_⟩
  have bits : x.bits = y.bits := by
    simp only [equals, Bool.and_eq_true, Bool.or_eq_true, decide_eq_true_eq] at h
    obtain ⟨-, same | ⟨zero, zero'⟩⟩ := h
    · exact same
    · have sign : (signBit ≤ x.bits.toNat) ↔ (signBit ≤ y.bits.toNat) := by
        simpa [negative] using signs zero zero'
      have left : x.bits.toNat % signBit = 0 := of_decide_eq_true zero
      have right : y.bits.toNat % signBit = 0 := of_decide_eq_true zero'
      have below := x.bits.toNat_lt
      have below' := y.bits.toNat_lt
      rw [← UInt64.toNat_inj]
      simp only [signBit] at sign left right
      omega
  cases x
  cases y
  exact congrArg mk bits

namespace Value

/-- Zeros have one sign, field by field. -/
def SameZeros : Value → Value → Prop
  | float x, float y => x.SameZero y
  | geo a b, geo c d => a.SameZero c ∧ b.SameZero d
  | _, _ => True

/-- Values that are equal and not the same differ in the sign of a zero. -/
theorem eq_iff_sameZeros {v w : Value} (h : v.equals w = true) : v = w ↔ v.SameZeros w := by
  cases v <;> cases w <;> simp only [equals, Bool.false_eq_true, decide_eq_true_eq] at h
  case float => rw [float.injEq, Binary64.eq_iff_sameZero h, SameZeros]
  case geo =>
    obtain ⟨lat, lon⟩ := Bool.and_eq_true_iff.1 h
    rw [geo.injEq, Binary64.eq_iff_sameZero lat, Binary64.eq_iff_sameZero lon, SameZeros]
  all_goals simp [h, SameZeros]

theorem equals_comm (v w : Value) : v.equals w = w.equals v := by
  cases v <;> cases w <;> simp [equals, Binary64.equals_comm, eq_comm]

theorem equals_trans {u v w : Value} (h : u.equals v = true) (h' : v.equals w = true) :
    u.equals w = true := by
  cases u <;> cases v <;> simp only [equals, Bool.false_eq_true] at h <;>
    cases w <;> simp only [equals, Bool.false_eq_true, Bool.and_eq_true, decide_eq_true_eq] at *
  case float => exact Binary64.equals_trans h h'
  case geo => exact ⟨Binary64.equals_trans h.1 h'.1, Binary64.equals_trans h.2 h'.2⟩
  all_goals exact h.trans h'

end Value

namespace Json

mutual
theorem equals_comm : ∀ a b : Json, a.equals b = b.equals a
  | .array as, b => by
    cases b with
    | array bs => exact equalItems_comm as bs
    | _ => rfl
  | .object as, b => by
    cases b with
    | object bs => exact equalFields_comm as bs
    | _ => rfl
  | .float x, b => by
    cases b with
    | float y => exact Binary64.equals_comm x y
    | _ => rfl
  | .null, b => by cases b <;> rfl
  | .bool x, b => by cases b <;> simp [equals, eq_comm]
  | .int x, b => by cases b <;> simp [equals, eq_comm]
  | .string x, b => by cases b <;> simp [equals, eq_comm]

theorem equalItems_comm : ∀ as bs : List Json, equalItems as bs = equalItems bs as
  | [], [] => rfl
  | [], _ :: _ => rfl
  | _ :: _, [] => rfl
  | a :: as, b :: bs => by rw [equalItems, equalItems, equals_comm a b, equalItems_comm as bs]

theorem equalFields_comm : ∀ as bs : List (String × Json), equalFields as bs = equalFields bs as
  | [], [] => rfl
  | [], _ :: _ => rfl
  | _ :: _, [] => rfl
  | (name, a) :: as, (name', b) :: bs => by
    simp only [equalFields, equals_comm a b, equalFields_comm as bs, eq_comm (a := name)]
end

mutual
theorem equals_trans : ∀ {a b c : Json}, a.equals b = true → b.equals c = true → a.equals c = true
  | .array as, b, c, h, h' => by
    cases b <;> simp only [equals, Bool.false_eq_true] at h
    cases c <;> simp only [equals, Bool.false_eq_true] at h'
    exact equalItems_trans h h'
  | .object as, b, c, h, h' => by
    cases b <;> simp only [equals, Bool.false_eq_true] at h
    cases c <;> simp only [equals, Bool.false_eq_true] at h'
    exact equalFields_trans h h'
  | .float x, b, c, h, h' => by
    cases b <;> simp only [equals, Bool.false_eq_true] at h
    cases c <;> simp only [equals, Bool.false_eq_true] at h'
    exact Binary64.equals_trans h h'
  | .null, b, c, h, h' => by
    cases b <;> simp only [equals, Bool.false_eq_true] at h
    exact h'
  | .bool x, b, c, h, h' => by
    cases b <;> simp only [equals, Bool.false_eq_true, decide_eq_true_eq] at h
    exact h ▸ h'
  | .int x, b, c, h, h' => by
    cases b <;> simp only [equals, Bool.false_eq_true, decide_eq_true_eq] at h
    exact h ▸ h'
  | .string x, b, c, h, h' => by
    cases b <;> simp only [equals, Bool.false_eq_true, decide_eq_true_eq] at h
    exact h ▸ h'

theorem equalItems_trans : ∀ {as bs cs : List Json},
    equalItems as bs = true → equalItems bs cs = true → equalItems as cs = true
  | [], [], _, _, h' => h'
  | a :: as, b :: bs, c :: cs, h, h' => by
    simp only [equalItems, Bool.and_eq_true] at *
    exact ⟨equals_trans h.1 h'.1, equalItems_trans h.2 h'.2⟩

theorem equalFields_trans : ∀ {as bs cs : List (String × Json)},
    equalFields as bs = true → equalFields bs cs = true → equalFields as cs = true
  | [], [], _, _, h' => h'
  | (_, a) :: as, (_, b) :: bs, (_, c) :: cs, h, h' => by
    simp only [equalFields, Bool.and_eq_true, decide_eq_true_eq] at *
    exact ⟨⟨h.1.1.trans h'.1.1, equals_trans h.1.2 h'.1.2⟩, equalFields_trans h.2 h'.2⟩
end

/-- One value, or two that count as equal. -/
def Same (a b : Json) : Prop := a = b ∨ a.equals b = true

namespace Same

variable {a b c : Json}

theorem refl (a : Json) : a.Same a := .inl rfl

theorem trans (h : a.Same b) (h' : b.Same c) : a.Same c := by
  obtain rfl | equal := h
  · exact h'
  · obtain rfl | equal' := h'
    · exact .inr equal
    · exact .inr (equals_trans equal equal')

theorem symm (h : a.Same b) : b.Same a := by
  obtain rfl | equal := h
  · exact .refl a
  · exact .inr ((equals_comm b a).trans equal)

theorem equals_left (h : a.Same b) : a.equals c = b.equals c := by
  obtain rfl | equal := h
  · rfl
  · refine Bool.eq_iff_iff.2 ⟨fun other => ?_, equals_trans equal⟩
    rw [equals_comm] at equal
    exact equals_trans equal other

theorem string_inj {s s' : String} (h : (string s).Same (string s')) : s = s' := by
  obtain same | equal := h
  · exact string.inj same
  · exact of_decide_eq_true equal

/-- Objects are the same field by field. -/
theorem fields {name name' : String} {as bs : List (String × Json)}
    (h : (object ((name, a) :: as)).Same (object ((name', b) :: bs))) :
    name = name' ∧ a.Same b ∧ (object as).Same (object bs) := by
  obtain same | equal := h
  · obtain ⟨field, rest⟩ := List.cons.inj (object.inj same)
    obtain ⟨rfl, rfl⟩ := Prod.mk.inj field
    exact ⟨rfl, .refl a, .inl (congrArg _ rest)⟩
  · simp only [equals, equalFields, Bool.and_eq_true, decide_eq_true_eq] at equal
    exact ⟨equal.1.1, .inr equal.1.2, .inr equal.2⟩

/-- Arrays are the same item by item. -/
theorem items {as bs : List Json} (h : (array (a :: as)).Same (array (b :: bs))) :
    a.Same b ∧ (array as).Same (array bs) := by
  obtain same | equal := h
  · obtain ⟨rfl, rest⟩ := List.cons.inj (array.inj same)
    exact ⟨.refl a, .inl (congrArg _ rest)⟩
  · simp only [equals, equalItems, Bool.and_eq_true] at equal
    exact ⟨.inr equal.1, .inr equal.2⟩

/-- What is equal to itself is equal to all that is the same. -/
theorem equals (h : a.Same b) (self : a.equals a = true) : a.equals b = true := by
  obtain rfl | equal := h
  · exact self
  · exact equal

end Same

end Json

end GraphStore
