import ElmBindgen.Proofs.Graph.Cycles

/-!
# The bound on chains

A chain goes from reference to reference, and a reference that came again would come again for
ever. So a chain that ends has no more links than the description has values, and the bound of a
model is never what cuts such a chain short: a larger one has no say, whatever overrides what in
the description and whether or not lists and maps hold each other in circles.

## Main definitions

* `Value.parts`, `Model.parts`: the values that a value or a description is made of

## Main results

* `Model.Mentions.parts_subset`: the references of a description are among its values
* `Model.references_of_cut`: a search goes through references that all differ
* `Model.Uses.chain_eq`: no bound that is larger than that of the model finds another chain
-/

namespace ElmBindgen

open Fault (Ends)

/-! ## Parts of values -/

namespace Value

mutual

/-- The values that a value is made of, with itself. -/
def parts : Value → List Value
  | list items => list items :: partsItems items
  | object fields => object fields :: partsFields fields
  | value => [value]

/-- The values that some items are made of. -/
def partsItems : List Value → List Value
  | [] => []
  | item :: rest => parts item ++ partsItems rest

/-- The values that some entries are made of. -/
def partsFields : List (String × Value) → List Value
  | [] => []
  | (_, value) :: rest => parts value ++ partsFields rest

end

mutual

/-- A value has as many parts as it counts for. -/
theorem length_parts : (value : Value) → value.parts.length = value.weight
  | list items => by rw [parts, weight, List.length_cons, length_partsItems]
  | object fields => by rw [parts, weight, List.length_cons, length_partsFields]
  | null => rfl
  | bool _ => rfl
  | int _ => rfl
  | float _ => rfl
  | text _ => rfl

theorem length_partsItems : (items : List Value) → (partsItems items).length = weightItems items
  | [] => rfl
  | item :: rest => by
    rw [partsItems, weightItems, List.length_append, length_parts, length_partsItems]

theorem length_partsFields :
    (fields : List (String × Value)) → (partsFields fields).length = weightFields fields
  | [] => rfl
  | (_, value) :: rest => by
    rw [partsFields, weightFields, List.length_append, length_parts, length_partsFields]

end

theorem mem_parts (value : Value) : value ∈ value.parts := by
  cases value <;> simp [parts]

/-- The parts of an entry are parts of the object. -/
theorem parts_subset {fields : List (String × Value)} {key : String} {value : Value}
    (listed : (key, value) ∈ fields) : value.parts ⊆ (object fields).parts := by
  have inside : value.parts ⊆ partsFields fields := by
    induction fields with
    | nil => cases listed
    | cons field rest ih =>
      rw [partsFields]
      rcases List.mem_cons.mp listed with rfl | listed
      · exact List.subset_append_left _ _
      · exact List.Subset.trans (ih listed) (List.subset_append_right _ _)
  rw [parts]
  exact List.Subset.trans inside (List.subset_cons_self _ _)

end Value

/-- What a table of entries refers to is part of it. -/
theorem Holds.parts_subset {entries : List (String × Value)} {reference : Value}
    (held : Holds entries reference) : reference.parts ⊆ (Value.object entries).parts := by
  cases held with
  | member here listed =>
    exact List.Subset.trans (Value.parts_subset listed) (Value.parts_subset (mem_of_lookup here))
  | item here => exact Value.parts_subset (mem_of_lookup here)
  | entryValue here => exact Value.parts_subset (mem_of_lookup here)

namespace Model

/-- The values that the operations and the shapes of a description are made of. -/
def parts (model : Model) : List Value :=
  model.shapes.parts ++ ((model.operations.map Value.parts).getD [])

theorem length_parts (model : Model) : model.parts.length + 1 = model.chainBound := by
  rw [parts, chainBound, List.length_append, Value.length_parts]
  cases model.operations with
  | none => rfl
  | some operations => rw [Option.map_some, Option.map_some, Option.getD_some, Option.getD_some,
      Value.length_parts]

variable {model : Model} {use : ShapeUse} {bound : Nat}

/-- The references of a description are among its values. -/
theorem Mentions.parts_subset {reference : Value} (mentions : model.Mentions reference) :
    reference.parts ⊆ model.parts := by
  induction mentions with
  | @payload name operation key reference found side here =>
    obtain ⟨operations, own, -, same, listed⟩ := operation_ok found
    have inside : operation.parts ⊆ model.parts := by
      rw [parts, same]
      exact List.Subset.trans (Value.parts_subset listed) (List.subset_append_right _ _)
    cases operation with
    | object fields => exact List.Subset.trans (Value.parts_subset (mem_of_lookup here)) inside
    | _ => cases here
  | shape found held =>
    obtain ⟨shapes, same, listed⟩ := shape_mem found
    rw [parts, same]
    have inside := List.Subset.trans held.parts_subset (Value.parts_subset listed)
    exact List.Subset.trans inside (List.subset_append_left _ _)
  | trait _ held ih => exact List.Subset.trans held.parts_subset ih

/-! ## References along chains -/

/-- A link is followed to what some reference of its use stands for. -/
theorem use_of_follow {link : Link} {next : ShapeUse}
    (followed : link.follow model use = .ok next) :
    ∃ reference, Holds use.entries reference ∧ model.use reference = .ok next := by
  have held {form : ShapeForm} {key : String} (found : use.held model form key = .ok next) :
      ∃ reference, use.entries.lookup key = some reference ∧ model.use reference = .ok next := by
    rw [ShapeUse.held] at found
    split at found
    · split at found
      · next reference here => exact ⟨reference, here, found⟩
      · cases found
    · cases found
  cases link with
  | list =>
    obtain ⟨reference, here, stands⟩ := held followed
    exact ⟨reference, .item here, stands⟩
  | map =>
    obtain ⟨reference, here, stands⟩ := held followed
    exact ⟨reference, .entryValue here, stands⟩

/-- A search that is cut short by a bound, but not by the next one, goes through as many references
as the next one says. None of them comes again, since behind each of them there is less to go. -/
theorem references_of_cut {reference : Value} (mentions : model.Mentions reference)
    (stands : model.use reference = .ok use) (cut : ¬Ends (model.chain bound use))
    (ends : Ends (model.chain (bound + 1) use)) :
    ∃ references : List Value, references.length = bound + 1 ∧ references.Nodup ∧
      ∀ reference ∈ references, model.Mentions reference ∧
        ∃ own, model.use reference = .ok own ∧ Ends (model.chain (bound + 1) own) := by
  induction bound generalizing reference use with
  | zero => exact ⟨[reference], rfl, List.nodup_singleton _, by simp [mentions, stands, ends]⟩
  | succ bound ih =>
    obtain ⟨link, next, stepped, followed, cut'⟩ := link_of_cut cut
    have ends' : Ends (model.chain (bound + 1) next) := by
      intro short
      refine ends ?_
      rw [Model.chain, stepped]
      simp only [bind, Except.bind, followed, short]
    obtain ⟨inner, held, stands'⟩ := use_of_follow followed
    have uses : model.Uses use := ⟨reference, mentions, stands⟩
    obtain ⟨others, length, distinct, told⟩ := ih (uses.mentions held) stands' cut' ends'
    refine ⟨reference :: others, by rw [List.length_cons, length],
      List.nodup_cons.mpr ⟨?_, distinct⟩,
      List.forall_mem_cons.mpr ⟨⟨mentions, use, stands, ends⟩, ?_⟩⟩
    -- Behind the link the search ends within a bound that is too small for the whole of it.
    · intro again
      obtain ⟨-, own, stands'', short⟩ := told reference again
      cases stands.symm.trans stands''
      exact cut short
    · intro other listed
      obtain ⟨mentions, own, stands, ends⟩ := told other listed
      refine ⟨mentions, own, stands, ?_⟩
      rwa [chain_of_ends ends (Nat.le_succ _)]

/-- The bound of a model never cuts a search short that would end. -/
theorem Uses.chain_ends (uses : model.Uses use) (ends : Ends (model.chain bound use)) :
    Ends (model.chain model.chainBound use) := by
  induction bound with
  | zero => exact absurd rfl ends
  | succ bound ih =>
    by_cases sooner : Ends (model.chain bound use)
    · exact ih sooner
    · -- This bound is the first one to be large enough, and there are not more references.
      obtain ⟨reference, mentions, stands⟩ := uses
      obtain ⟨references, length, distinct, told⟩ :=
        references_of_cut mentions stands sooner ends
      have inside : references ⊆ model.parts := fun reference listed =>
        (told reference listed).1.parts_subset reference.mem_parts
      have few := (distinct.subperm inside).length_le
      have counts := model.length_parts
      rwa [chain_of_ends ends (by omega)]

/-- No bound that is larger than that of the model finds another chain. -/
theorem Uses.chain_eq (uses : model.Uses use) (more : model.chainBound ≤ bound) :
    model.chain bound use = model.chain model.chainBound use := by
  by_cases ends : Ends (model.chain model.chainBound use)
  · exact chain_of_ends ends more
  · have cut : ¬Ends (model.chain bound use) := fun long => ends (uses.chain_ends long)
    rw [not_not.mp ends, not_not.mp cut]

end Model

end ElmBindgen
