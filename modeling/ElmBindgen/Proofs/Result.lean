import ElmBindgen.Fault
import Mathlib.Data.List.Forall2

/-!
# Results that may be faults

When a composed result is there, and what its parts are then. One fault is not about what is
read: it stands for a search that a bound has cut short.

## Main definitions

* `Fault.Ends`: a result that no bound has cut short
* `Fault.Agree`: related results, or the same fault twice

## Main results

* `Fault.bind_ok_iff`: a sequence has a result if both of its parts do
* `Fault.mapM_ok_iff`: a list has a result if every element has one
* `Fault.Agree.bind`, `Fault.Agree.mapM`: what agrees in its parts agrees
-/

namespace ElmBindgen.Fault

variable {α β : Type}

theorem bind_ok_iff {result : Except Fault α} {next : α → Except Fault β} {b : β} :
    result >>= next = .ok b ↔ ∃ a, result = .ok a ∧ next a = .ok b := by
  cases result with
  | error fault => simp [bind, Except.bind]
  | ok a => simp [bind, Except.bind]

theorem mapM_ok_iff {each : α → Except Fault β} {xs : List α} {ys : List β} :
    xs.mapM each = .ok ys ↔ List.Forall₂ (fun x y => each x = .ok y) xs ys := by
  induction xs generalizing ys with
  | nil =>
    rw [List.mapM_nil, List.forall₂_nil_left_iff]
    exact ⟨fun same => by cases same; rfl, fun same => by rw [same]; rfl⟩
  | cons x rest ih =>
    rw [List.mapM_cons, bind_ok_iff, List.forall₂_cons_left_iff]
    constructor
    · rintro ⟨y, first, tail⟩
      obtain ⟨others, found, made⟩ := bind_ok_iff.mp tail
      cases made
      exact ⟨y, others, first, ih.mp found, rfl⟩
    · rintro ⟨y, others, first, found, rfl⟩
      exact ⟨y, first, bind_ok_iff.mpr ⟨others, ih.mpr found, rfl⟩⟩

/-- A result or a fault of what was read, and not a search that a bound has cut short. -/
def Ends (result : Except Fault α) : Prop := result ≠ .error .endlessNesting

namespace Ends

theorem ok (a : α) : Ends (.ok a) := nofun

/-- The fault of a part is one of the whole. -/
theorem error {fault : Fault} (ends : Ends (.error fault : Except Fault α)) :
    Ends (.error fault : Except Fault β) :=
  fun same => ends (congrArg Except.error (Except.error.inj same))

theorem bind {result : Except Fault α} {next : α → Except Fault β} (first : Ends result)
    (second : ∀ a, result = .ok a → Ends (next a)) : Ends (result >>= next) := by
  cases result with
  | error fault => exact first.error
  | ok a => exact second a rfl

theorem mapM {xs : List α} {each : α → Except Fault β} (all : ∀ x, Ends (each x)) :
    Ends (xs.mapM each) := by
  induction xs with
  | nil =>
    rw [List.mapM_nil]
    exact ok []
  | cons x rest ih =>
    rw [List.mapM_cons]
    exact (all x).bind fun _ _ => ih.bind fun _ _ => ok _

end Ends

/-- Every item of the second of two related lists has a partner in the first. -/
theorem exists_of_forall₂ {related : α → β → Prop} {xs : List α} {ys : List β}
    (all : List.Forall₂ related xs ys) {y : β} (listed : y ∈ ys) : ∃ x ∈ xs, related x y := by
  induction all with
  | nil => cases listed
  | cons first _ ih =>
    rcases List.mem_cons.mp listed with rfl | listed
    · exact ⟨_, List.mem_cons_self, first⟩
    · obtain ⟨x, here, holds⟩ := ih listed
      exact ⟨x, List.mem_cons_of_mem _ here, holds⟩

/-- Two readings agree: both give results that are related, or both have the same fault. -/
inductive Agree (related : α → β → Prop) : Except Fault α → Except Fault β → Prop
  | ok {a b} (relation : related a b) : Agree related (.ok a) (.ok b)
  | error (fault) : Agree related (.error fault) (.error fault)

namespace Agree

variable {γ δ : Type} {first : α → β → Prop} {second : γ → δ → Prop}

theorem same {related : α → α → Prop} (result : Except Fault α)
    (refl : ∀ a, result = .ok a → related a a) : Agree related result result := by
  cases result with
  | error fault => exact .error fault
  | ok a => exact .ok (refl a rfl)

theorem exists_of_ok {result : Except Fault α} {result' : Except Fault β}
    (agree : Agree first result result') {a : α} (found : result = .ok a) :
    ∃ b, result' = .ok b ∧ first a b := by
  cases agree with
  | error fault => cases found
  | ok relation =>
    cases found
    exact ⟨_, rfl, relation⟩

theorem bind {result : Except Fault α} {result' : Except Fault β} {next : α → Except Fault γ}
    {next' : β → Except Fault δ} (before : Agree first result result')
    (onward : ∀ a b, first a b → Agree second (next a) (next' b)) :
    Agree second (result >>= next) (result' >>= next') := by
  cases before with
  | error fault => exact .error fault
  | ok relation => exact onward _ _ relation

theorem map {result : Except Fault α} {result' : Except Fault β} {change : α → γ} {change' : β → δ}
    (before : Agree first result result')
    (onward : ∀ a b, first a b → second (change a) (change' b)) :
    Agree second (change <$> result) (change' <$> result') := by
  cases before with
  | error fault => exact .error fault
  | ok relation => exact .ok (onward _ _ relation)

theorem mapM {each : α → Except Fault γ} {each' : β → Except Fault δ} {xs : List α} {ys : List β}
    (all : List.Forall₂ first xs ys)
    (onward : ∀ x y, first x y → Agree second (each x) (each' y)) :
    Agree (List.Forall₂ second) (xs.mapM each) (ys.mapM each') := by
  induction all with
  | nil => exact .ok .nil
  | cons relation _ ih =>
    rw [List.mapM_cons, List.mapM_cons]
    exact (onward _ _ relation).bind fun _ _ head => ih.bind fun _ _ tail => .ok (.cons head tail)

theorem eq (result : Except Fault α) : Agree Eq result result := same result fun _ _ => rfl

/-- What is related are the results. -/
theorem results {result : Except Fault α} {result' : Except Fault β}
    (agree : Agree first result result') :
    Agree (fun a b => first a b ∧ result = .ok a ∧ result' = .ok b) result result' := by
  cases agree with
  | error fault => exact .error fault
  | ok relation => exact .ok ⟨relation, rfl, rfl⟩

theorem mono {weaker : α → β → Prop} {result : Except Fault α} {result' : Except Fault β}
    (agree : Agree first result result') (weaken : ∀ a b, first a b → weaker a b) :
    Agree weaker result result' := by
  cases agree with
  | error fault => exact .error fault
  | ok relation => exact .ok (weaken _ _ relation)

end Agree

end ElmBindgen.Fault
