import ElmBindgen.Proofs.Result

/-!
# Results with needs

Some readings check one thing after another. Such a reading has a result if all that it needs is
there, and otherwise the fault of the first thing that is missing, whatever comes after it.

## Main definitions

* `Need`: a condition, and the fault where it does not hold
* `Need.Met`, `Need.Fails`: all needs hold, or the first that does not has a certain fault
* `Need.Answers`: a result of a certain kind if all needs hold, and else the fault of the first

## Main results

* `Need.Answers.bind`: one reading after another has the needs of both
* `Need.Answers.ok_iff`, `Need.Answers.error_iff`: when there is a result, and when which fault
-/

namespace ElmBindgen

/-- A condition that a reading depends on, and the fault that it has otherwise. -/
structure Need where
  holds : Prop
  fault : Fault

namespace Need

variable {α β : Type} {needs more : List Need} {fault other : Fault}

/-- All needs hold. -/
def Met (needs : List Need) : Prop := ∀ need ∈ needs, need.holds

/-- Not all needs hold, and the first that does not has the fault. -/
def Fails : List Need → Fault → Prop
  | [], _ => False
  | need :: rest, fault => ¬need.holds ∧ need.fault = fault ∨ need.holds ∧ Fails rest fault

theorem Fails.not_met (fails : Fails needs fault) : ¬Met needs := by
  induction needs with
  | nil => exact fails.elim
  | cons need rest ih =>
    intro met
    obtain ⟨holds, others⟩ := List.forall_mem_cons.mp met
    rcases fails with ⟨missing, -⟩ | ⟨-, fails⟩
    · exact missing holds
    · exact ih fails others

theorem Fails.unique (fails : Fails needs fault) (fails' : Fails needs other) : fault = other := by
  induction needs with
  | nil => exact fails.elim
  | cons need rest ih =>
    rcases fails with ⟨missing, rfl⟩ | ⟨holds, fails⟩ <;>
      rcases fails' with ⟨missing', same⟩ | ⟨holds', fails'⟩
    · exact same
    · exact absurd holds' missing
    · exact absurd holds missing'
    · exact ih fails fails'

/-- What comes behind the first need that does not hold has no say. -/
theorem Fails.append (fails : Fails needs fault) (more : List Need) :
    Fails (needs ++ more) fault := by
  induction needs with
  | nil => exact fails.elim
  | cons need rest ih => exact fails.imp_right fun ⟨holds, fails⟩ => ⟨holds, ih fails⟩

theorem Met.fails_append (met : Met needs) (fails : Fails more fault) :
    Fails (needs ++ more) fault := by
  induction needs with
  | nil => exact fails
  | cons need rest ih =>
    obtain ⟨holds, others⟩ := List.forall_mem_cons.mp met
    exact .inr ⟨holds, ih others⟩

/-- A result of a certain kind if all needs hold, and the fault of the first that does not
otherwise. -/
inductive Answers (needs : List Need) (kind : α → Prop) : Except Fault α → Prop
  | ok (met : Met needs) {a} (own : kind a) : Answers needs kind (.ok a)
  | error {fault : Fault} (fails : Fails needs fault) : Answers needs kind (.error fault)

namespace Answers

variable {kind : α → Prop} {kind' : β → Prop} {result : Except Fault α}

/-- A reading with one need. -/
theorem one {holds : Prop} (there : holds → ∃ a, result = .ok a ∧ kind a)
    (missing : ¬holds → result = .error fault) : Answers [⟨holds, fault⟩] kind result := by
  by_cases own : holds
  · obtain ⟨a, rfl, made⟩ := there own
    exact .ok (List.forall_mem_singleton.mpr own) made
  · rw [missing own]
    exact .error (.inl ⟨own, rfl⟩)

/-- One reading after another has the needs of both, in their order. -/
theorem bind {next : α → Except Fault β} (first : Answers needs kind result)
    (second : ∀ a, kind a → Answers more kind' (next a)) :
    Answers (needs ++ more) kind' (result >>= next) := by
  cases first with
  | error fails => exact .error (fails.append more)
  | @ok met a own =>
    have rest := second a own
    change Answers _ _ (next a)
    generalize next a = result at rest ⊢
    cases rest with
    | error fails => exact .error (met.fails_append fails)
    | ok met' made => exact .ok (List.forall_mem_append.mpr ⟨met, met'⟩) made

/-- What is made of a result without a fault needs nothing more. -/
theorem bind_ok {next : α → Except Fault β} (first : Answers needs kind result)
    (second : ∀ a, kind a → ∃ b, next a = .ok b ∧ kind' b) :
    Answers needs kind' (result >>= next) := by
  have whole : Answers (needs ++ []) kind' (result >>= next) := by
    refine first.bind fun a own => ?_
    obtain ⟨b, made, its⟩ := second a own
    exact made ▸ .ok (by simp [Met]) its
  rwa [List.append_nil] at whole

theorem imp (answers : Answers needs kind result) {kind' : α → Prop}
    (onward : ∀ a, kind a → kind' a) : Answers needs kind' result := by
  cases answers with
  | error fails => exact .error fails
  | ok met own => exact .ok met (onward _ own)

theorem kind_of_ok (answers : Answers needs kind result) {a : α} (found : result = .ok a) :
    kind a := by
  cases answers with
  | error fails => cases found
  | ok met own =>
    cases found
    exact own

/-- There is a result exactly if all needs hold. -/
theorem ok_iff (answers : Answers needs kind result) : (∃ a, result = .ok a) ↔ Met needs := by
  cases answers with
  | error fails => exact ⟨nofun, fun met => absurd met fails.not_met⟩
  | ok met own => exact ⟨fun _ => met, fun _ => ⟨_, rfl⟩⟩

/-- There is a fault exactly if it is that of the first need that does not hold. -/
theorem error_iff (answers : Answers needs kind result) :
    result = .error fault ↔ Fails needs fault := by
  cases answers with
  | error fails =>
    rw [Except.error.injEq]
    exact ⟨fun same => same ▸ fails, fails.unique⟩
  | ok met own => exact ⟨nofun, fun fails => absurd met fails.not_met⟩

end Answers

end Need

end ElmBindgen
