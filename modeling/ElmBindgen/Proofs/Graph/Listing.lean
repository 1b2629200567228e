import ElmBindgen.Proofs.Graph.Literal

/-!
# Listing references

The references of a description in a list, so that what is asked of all of them can be
decided. References that hold no others in their traits are the only ones of a model.

## Main definitions

* `Value.references`: the references that a shape or another reference holds
* `Model.listed`: the references under the operations and in the shapes
* `Value.named`: a reference without traits

## Main results

* `Model.Mentions.mem_listed`: a model has no other references if these hold none
* `Model.Literal.of_listed`: a test for literal models
-/

namespace ElmBindgen

theorem mem_of_lookup {α : Type} {entries : List (String × α)} {key : String} {value : α}
    (here : entries.lookup key = some value) : (key, value) ∈ entries := by
  obtain ⟨before, after, rfl, -⟩ := List.lookup_eq_some_iff.mp here
  simp

/-- The references that a shape or another reference holds. -/
def Value.references (value : Value) : List Value :=
  (match value.get? "members" with
    | some (.object members) => members.map Prod.snd
    | _ => []) ++
  (value.get? "member").toList ++ (value.get? "value").toList

/-- A reference that only names a shape. -/
def Value.named (shape : String) : Value := .object [("shape", .text shape)]

theorem Holds.mem_references {entries : List (String × Value)} {reference : Value}
    (held : Holds entries reference) : reference ∈ (Value.object entries).references := by
  simp only [Value.references, Value.get?, List.mem_append, Option.mem_toList]
  cases held with
  | member here listed =>
    rw [here]
    exact .inl (.inl (List.mem_map_of_mem listed))
  | item here => exact .inl (.inr here)
  | entryValue here => exact .inr here

namespace Model

variable {model : Model}

/-- The references under the operations of a model, then those in its shapes. -/
def listed (model : Model) : List Value :=
  (match model.operations with
    | some (.object operations) =>
      operations.flatMap fun operation =>
        (operation.2.get? "input").toList ++ (operation.2.get? "output").toList
    | _ => []) ++
  (match model.shapes with
    | .object shapes => shapes.flatMap fun shape => shape.2.references
    | _ => [])

/-- What is found as an operation is the entry of one. -/
theorem operation_ok {name operation : Value} (found : model.operation name = .ok operation) :
    ∃ operations key, name = .text key ∧ model.operations = some (.object operations) ∧
      (key, operation) ∈ operations := by
  obtain ⟨_, _, found⟩ := Fault.bind_ok_iff.mp found
  split at found
  · cases found
  · next operations own =>
    split at found
    · split at found
      · next entries here =>
        cases found
        exact ⟨operations, _, rfl, own, mem_of_lookup here⟩
      · cases found
      · cases found
    · cases found
  · obtain ⟨_, _, found⟩ := Fault.bind_ok_iff.mp found
    cases found
  · cases found

/-- What is found as a shape is the entry of one. -/
theorem shape_mem {name found : String} {entry : Value}
    (shape : model.shape (.text name) = .ok (found, entry)) :
    ∃ shapes, model.shapes = .object shapes ∧ (found, entry) ∈ shapes := by
  obtain ⟨_, _, shape⟩ := Fault.bind_ok_iff.mp shape
  split at shape
  · next shapes own =>
    cases here : shapes.lookup name with
    | none => simp [here, throw, throwThe, MonadExceptOf.throw] at shape
    | some held =>
      simp only [here] at shape
      cases shape
      exact ⟨shapes, own, mem_of_lookup here⟩
  · obtain ⟨_, _, shape⟩ := Fault.bind_ok_iff.mp shape
    cases shape
  · cases shape

/-- If the listed references hold no others in their traits, all references are listed. -/
theorem Mentions.mem_listed {reference : Value} (mentions : model.Mentions reference)
    (flat : ∀ reference ∈ model.listed, reference.references = []) :
    reference ∈ model.listed := by
  induction mentions with
  | payload found side here =>
    obtain ⟨operations, key, -, own, listed⟩ := operation_ok found
    rw [Model.listed, own]
    refine List.mem_append_left _ (List.mem_flatMap.mpr ⟨_, listed, ?_⟩)
    rcases side with rfl | rfl
    · exact List.mem_append_left _ (Option.mem_toList.mpr here)
    · exact List.mem_append_right _ (Option.mem_toList.mpr here)
  | shape found held =>
    obtain ⟨shapes, own, listed⟩ := shape_mem found
    rw [Model.listed, own]
    exact List.mem_append_right _ (List.mem_flatMap.mpr ⟨_, listed, held.mem_references⟩)
  | trait _ held ih =>
    -- By induction the reference that holds this one is listed, so it holds none.
    have none := held.mem_references
    rw [flat _ ih] at none
    cases none

/-- A reference without the entries that hold references holds none. -/
theorem references_of_plain {reference : Value}
    (plain : ∀ key ∈ ["members", "member", "value"], reference.get? key = none) :
    reference.references = [] := by
  rw [Value.references, plain "members" (by decide), plain "member" (by decide),
    plain "value" (by decide)]
  rfl

/-- A model is literal if none of the listed references has an entry of a shape. -/
theorem Literal.of_listed
    (plain : ∀ reference ∈ model.listed, ∀ key ∈ shapeKeys, reference.get? key = none) :
    model.Literal := by
  intro reference mentions
  refine plain reference (mentions.mem_listed fun other listed => ?_)
  exact references_of_plain fun key here => plain other listed key (by simp_all [shapeKeys])

end Model

end ElmBindgen
