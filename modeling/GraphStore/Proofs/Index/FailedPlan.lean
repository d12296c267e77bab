import GraphStore.Proofs.Index.Registration
import GraphStore.Proofs.Index.SetGrowth

/-!
A plan into a set that fails. It does not take back what it had come to before the fault, so a set is as it was
only if it held all of that. Tried again, the plan may bring a value of a LIST field a second time.
-/
namespace GraphStore

namespace Planner

variable {c : Planner} {mutation : Mutation} {space space' : FieldSpace} {set set' : UpdateSet} {fault : IndexFault}

/-- A plan comes to the same updates and the same end for every set. -/
theorem planInto_run (c : Planner) (mutation : Mutation) (space : FieldSpace) (set : UpdateSet) :
    c.planInto mutation (space, set) =
      ((c.planMutation mutation ⟨space, []⟩).1, (c.planMutation mutation ⟨space, []⟩).2.space,
        set.insertAll (c.planMutation mutation ⟨space, []⟩).2.planned) := rfl

theorem plan_of_planInto_fault (failed : c.planInto mutation (space, set) = (.error fault, space', set')) :
    c.plan mutation space = (.error fault, space') := by
  rw [planInto_run, Prod.mk.injEq, Prod.mk.injEq] at failed
  obtain ⟨result, there, -⟩ := failed
  rw [plan_run, result, there]
  rfl

/-- A plan that fails hands nothing out of its own, but into a set goes what it had come to before the fault.
These are updates of its mutation, the same for every set; a set keeps what it held, and is as it was just if
each of them was there with its tags. -/
theorem planInto_fault (failed : c.planInto mutation (space, set) = (.error fault, space', set')) :
    c.plan mutation space = (.error fault, space') ∧
      ∃ us, (∀ x ∈ us, x.kind = mutation.kind ∧ x.element = mutation.element) ∧
        set' = set.insertAll us ∧
        (∀ held, c.planInto mutation (space, held) = (.error fault, space', held.insertAll us)) ∧
        UpdateSet.Grows set.updates set'.updates ∧
        (set' = set ↔ ∀ x ∈ us, (set.insert x).2 = set) := by
  refine ⟨plan_of_planInto_fault failed, (c.planMutation mutation ⟨space, []⟩).2.planned, ?_⟩
  rw [planInto_run, Prod.mk.injEq, Prod.mk.injEq] at failed
  obtain ⟨result, there, rfl⟩ := failed
  refine ⟨fun x came => (origin_of_planned mutation space x came).belongs, rfl, fun held => ?_,
    UpdateSet.grows_insertAll set _, UpdateSet.insertAll_eq_self_iff⟩
  rw [planInto_run, result, there]

/-- The index that has learned of the notes is to have the note, though the plan failed. -/
theorem planInto_fault_busy : ∃ space' set',
    busyPlanner.planInto (.vertexProperty ann tall .add) (.new noteFields, .empty) =
      (.error (.backend ⟨true, "busy"⟩), space', set') ∧ set'.mixeds.map (·.index) = [searchedSince.id] ∧
    busyPlanner.plan (.vertexProperty ann tall .add) (.new noteFields) =
      (.error (.backend ⟨true, "busy"⟩), space') ∧
    ∃ us, (∀ x ∈ us, x.kind = .add ∧ x.element = .vertex "ann") ∧ set' = UpdateSet.empty.insertAll us ∧
      (∀ held, busyPlanner.planInto (.vertexProperty ann tall .add) (.new noteFields, held) =
        (.error (.backend ⟨true, "busy"⟩), space', held.insertAll us)) ∧
      UpdateSet.Grows [] set'.updates ∧
      (set' = .empty ↔ ∀ x ∈ us, (UpdateSet.empty.insert x).2 = .empty) :=
  ⟨_, _, rfl, rfl, planInto_fault rfl⟩

/-- A plan that fails leaves a value in the set. Tried again, it leaves the value there once more, where a set that
had none of it would hold it once. -/
theorem planInto_busy_twice : ∃ space' set' space'' set'',
    busyPlanner.planInto (.vertexProperty ann tall .add) (.new noteFields, .empty) =
      (.error (.backend ⟨true, "busy"⟩), space', set') ∧ set' ≠ .empty ∧
    busyPlanner.planInto (.vertexProperty ann tall .add) (space', set') = (.ok (), space'', set'') ∧
    set''.mixeds.map (·.index) = [searchedSince.id, searchedSince.id, archive.id] ∧
    (busyPlanner.planInto (.vertexProperty ann tall .add) (space', .empty)).2.2.mixeds.map (·.index) =
      [searchedSince.id, archive.id] := by
  refine ⟨_, _, _, _, rfl, ?_, rfl, rfl, rfl⟩
  intro same
  cases congrArg UpdateSet.size same

end Planner

end GraphStore
