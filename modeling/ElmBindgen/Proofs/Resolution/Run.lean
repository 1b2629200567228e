import ElmBindgen.Resolver.Query
import Mathlib.Order.Defs.Unbundled

/-!
# Runs of resolution steps

How a composed step runs, told by how its parts run, and which relations between
the tables before and after a run carry over from the parts of a step to the whole.

## Main definitions

* `Resolution.Keeps`: a relation that a step keeps, whatever its outcome

## Main results

* `Resolution.on_bind_ok_iff`, `Resolution.on_bind_error_iff`: the runs of a sequence
* `Resolution.Keeps.bind`, `Resolution.Keeps.mapM`, `Resolution.Keeps.forM`: a
  preorder that the parts keep is kept by the whole
-/

namespace ElmBindgen.Resolution

variable {α β : Type} {step : Resolution α} {next : α → Resolution β}

/-! ## Sequences -/

section Sequences

variable {table after : SlotTable} {fault : Fault}

/-- A sequence succeeds when both of its steps do, the second on the table that the
first leaves. -/
theorem on_bind_ok_iff {b : β} :
    (step >>= next).on table = (.ok b, after) ↔
      ∃ a middle, step.on table = (.ok a, middle) ∧ (next a).on middle = (.ok b, after) := by
  rw [on_bind]
  rcases step.on table with ⟨_ | a, middle⟩ <;> simp [and_assoc]

/-- A sequence fails where its first step fails, or else its second. -/
theorem on_bind_error_iff :
    (step >>= next).on table = (.error fault, after) ↔
      step.on table = (.error fault, after) ∨
        ∃ a middle, step.on table = (.ok a, middle) ∧
          (next a).on middle = (.error fault, after) := by
  rw [on_bind]
  rcases step.on table with ⟨_ | a, middle⟩ <;> simp [and_assoc]

/-- A step that follows a pure success runs on the same table. -/
theorem on_ofExcept_bind (result : Except Fault α) :
    (ofExcept result >>= next).on table =
      match result with
      | .ok a => (next a).on table
      | .error fault => (.error fault, table) := by
  rw [on_bind, on_ofExcept]
  rcases result with _ | _ <;> rfl

/-- A sequence that starts with a pure result succeeds if the result does. -/
theorem on_ofExcept_bind_ok_iff {result : Except Fault α} {b : β} :
    (ofExcept result >>= next).on table = (.ok b, after) ↔
      ∃ a, result = .ok a ∧ (next a).on table = (.ok b, after) := by
  rw [on_ofExcept_bind]
  rcases result with _ | _ <;> simp

theorem on_table_bind {next : SlotTable → Resolution β} :
    (Resolution.table >>= next).on table = (next table).on table := by
  rw [on_bind, on_table]

/-- Discarding what a step answers leaves its effect. -/
theorem on_discard_ok_iff :
    (discard step).on table = (.ok (), after) ↔ ∃ a, step.on table = (.ok a, after) := by
  have unfolded : discard step = step >>= fun _ => pure () := rfl
  rw [unfolded, on_bind_ok_iff]
  simp

end Sequences

/-! ## Relations kept by steps -/

/-- Whatever the outcome of a step, a relation holds between the table before it and
the table after it. -/
def Keeps (relation : SlotTable → SlotTable → Prop) (step : Resolution α) : Prop :=
  ∀ table, relation table (step.on table).2

namespace Keeps

variable {relation : SlotTable → SlotTable → Prop}

section Reflexive

variable [Std.Refl relation]

theorem pure (a : α) : Keeps relation (Pure.pure a : Resolution α) := fun table => refl table

theorem throw (fault : Fault) : Keeps relation (MonadExcept.throw fault : Resolution α) :=
  fun table => refl table

theorem ofExcept (result : Except Fault α) : Keeps relation (Resolution.ofExcept result) :=
  fun table => refl table

theorem table : Keeps relation Resolution.table := fun slots => refl slots

/-- What follows a pure result only has to keep a relation if there is one. -/
theorem ofExcept_bind {result : Except Fault α}
    (second : ∀ a, result = .ok a → Keeps relation (next a)) :
    Keeps relation (Resolution.ofExcept result >>= next) := by
  intro table
  rw [on_ofExcept_bind]
  cases result with
  | error fault => exact refl table
  | ok a => exact second a rfl table

end Reflexive

section Preorder

variable [IsPreorder SlotTable relation]

theorem bind (first : Keeps relation step) (second : ∀ a, Keeps relation (next a)) :
    Keeps relation (step >>= next) := by
  intro table
  have before := first table
  rw [on_bind]
  cases run : step.on table with
  | mk outcome middle =>
    rw [run] at before
    cases outcome with
    | error fault => exact before
    | ok a => exact trans_of relation before (second a middle)

theorem discard (whole : Keeps relation step) : Keeps relation (Functor.discard step) :=
  whole.bind fun _ => pure ()

theorem mapM {xs : List α} {each : α → Resolution β}
    (all : ∀ x ∈ xs, Keeps relation (each x)) : Keeps relation (xs.mapM each) := by
  induction xs with
  | nil =>
    rw [List.mapM_nil]
    exact pure []
  | cons x rest ih =>
    have first := all x List.mem_cons_self
    have others := ih fun y listed => all y (List.mem_cons_of_mem x listed)
    rw [List.mapM_cons]
    exact first.bind fun _ => others.bind fun _ => pure _

theorem forM {xs : List α} {each : α → Resolution PUnit} (all : ∀ x, Keeps relation (each x)) :
    Keeps relation (xs.forM each) := by
  induction xs with
  | nil => exact pure PUnit.unit
  | cons x rest ih =>
    change Keeps relation (each x >>= fun _ => rest.forM each)
    exact (all x).bind fun _ => ih

end Preorder

end Keeps

end ElmBindgen.Resolution
