import GraphStore.Index.FieldValue
import GraphStore.Proofs.Calendar.Rfc3339
import GraphStore.Proofs.Text.Hex
import GraphStore.Proofs.Value.Equality

/-!
The forms that values have on a search backend. What is not a number has a form, and so every value has one that
is equal to itself. Values of one type have equal forms if they are equal, but for dates within one millisecond
and floats that are not finite, which all have one form.
-/
namespace GraphStore

namespace Binary64

variable {x y : Binary64}

theorem equals_self (finite : x.isFinite = true) : x.equals x = true := by
  simp only [isFinite, decide_eq_true_eq] at finite
  have number : x.isNaN = false := by simp [isNaN, Nat.le_of_lt finite]
  simp [equals, number]

theorem isFinite_of_equals (equal : x.equals y = true) : x.isFinite = y.isFinite := by
  have magnitude : x.magnitude = y.magnitude := by
    simp only [equals, Bool.and_eq_true, Bool.or_eq_true, decide_eq_true_eq, isZero] at equal
    obtain ⟨-, same | ⟨zero, zero'⟩⟩ := equal
    · rw [Binary64.magnitude, Binary64.magnitude, same]
    · rw [zero, zero']
  rw [isFinite, isFinite, magnitude]

/-- Equal, or both not finite. -/
def Blurs (x y : Binary64) : Prop := x.equals y = true ∨ x.isFinite = false ∧ y.isFinite = false

end Binary64

theorem Json.ofFloat_equals_iff (x y : Binary64) : (ofFloat x).equals (ofFloat y) = true ↔ x.Blurs y := by
  rw [Binary64.Blurs, ofFloat, ofFloat]
  by_cases finite : x.isFinite = true <;> by_cases finite' : y.isFinite = true
  · simp [finite, finite', equals]
  · have apart : ¬x.equals y = true := fun equal => finite' (Binary64.isFinite_of_equals equal ▸ finite)
    simp [finite, finite', equals, apart]
  · have apart : ¬x.equals y = true := fun equal => finite (Binary64.isFinite_of_equals equal ▸ finite')
    simp [finite, finite', equals, apart]
  · simp [finite, finite', equals]

theorem Json.ofFloat_equals_self (x : Binary64) : (ofFloat x).equals (ofFloat x) = true := by
  rw [ofFloat]
  split
  · next finite => exact Binary64.equals_self finite
  · rfl

namespace Value

theorem searchForm_equals_self (v : Value) : v.searchForm.equals v.searchForm = true := by
  cases v with
  | float x => exact Json.ofFloat_equals_self x
  | geo lat lon => simp [searchForm, Json.equals, Json.equalItems, Json.ofFloat_equals_self]
  | _ => simp [searchForm, Json.equals]

/-- What a search backend cannot tell apart: dates within one millisecond of a clock, floats that are not finite,
values of different types that are written alike, and otherwise only equal values. -/
def Blurs : Value → Value → Prop
  | .float x, .float y => x.Blurs y
  | .date s, .date t => s.shown.floorMillis = t.shown.floorMillis
  | .geo lat lon, .geo lat' lon' => lat.Blurs lat' ∧ lon.Blurs lon'
  | v, w => if v.dataType = w.dataType then v.equals w = true else v.searchForm.equals w.searchForm = true

theorem searchForm_equals_iff (v w : Value) : v.searchForm.equals w.searchForm = true ↔ v.Blurs w := by
  by_cases alike : v.dataType = w.dataType
  · cases v <;> cases w <;> simp only [dataType, reduceCtorEq] at alike
    case date s t => simp [searchForm, Json.equals, Blurs, Rfc3339.text_millis_eq_iff]
    case float x y => exact Json.ofFloat_equals_iff x y
    case geo =>
      simp [searchForm, Json.equals, Json.equalItems, Blurs, Json.ofFloat_equals_iff, and_comm]
    case int => simp [searchForm, Json.equals, Blurs, dataType, equals, Int64.toInt_inj]
    case uuid u u' =>
      have inj : u.text = u'.text ↔ u = u' := ⟨Uuid.text_inj, congrArg Uuid.text⟩
      simp [searchForm, Json.equals, Blurs, dataType, equals, inj]
    case bytes bs cs =>
      have inj : Hex.bytes bs = Hex.bytes cs ↔ bs = cs :=
        ⟨fun same => Hex.bytes_inj (congrArg String.toList same), congrArg Hex.bytes⟩
      simp [searchForm, Json.equals, Blurs, dataType, equals, inj]
    all_goals simp [searchForm, Json.equals, Blurs, dataType, equals]
  · have other : v.Blurs w = (v.searchForm.equals w.searchForm = true) := by
      cases v <;> cases w <;> first | exact absurd rfl alike | (unfold Blurs; exact if_neg alike)
    rw [other]

end Value

end GraphStore
