import ElmBindgen.Model.Basic
import ElmBindgen.Proofs.Result

/-!
# References of a model

The references that a description holds, wherever one may stand: under an operation, in
a shape, and among the traits of another reference. What a use consists of is given by
the shape and by the traits of the reference.

## Main definitions

* `Model.Mentions`: the references of a model
* `Model.Uses`: the uses that they stand for

## Main results

* `Model.use_ok`: what a use takes from its shape and what from its reference
* `Model.Uses.of_members`, `Model.Uses.of_item`, `Model.Uses.of_entryValue`: what a use
  consists of is used by the model
-/

namespace ElmBindgen

/-- A table of entries, of a shape or of a reference, holds a reference. -/
inductive Holds (entries : List (String × Value)) : Value → Prop
  | member {members key reference} (here : entries.lookup "members" = some (.object members))
      (listed : (key, reference) ∈ members) : Holds entries reference
  | item {reference} (here : entries.lookup "member" = some reference) : Holds entries reference
  | entryValue {reference} (here : entries.lookup "value" = some reference) :
      Holds entries reference

namespace Model

/-- A reference stands somewhere in a model. -/
inductive Mentions (model : Model) : Value → Prop
  | payload {name operation key reference} (found : model.operation name = .ok operation)
      (side : key = "input" ∨ key = "output") (here : operation.get? key = some reference) :
      Mentions model reference
  | shape {name entries reference} (found : model.shape (.text name) = .ok (name, .object entries))
      (held : Holds entries reference) : Mentions model reference
  | trait {fields reference} (mentions : Mentions model (.object fields))
      (held : Holds fields reference) : Mentions model reference

/-- A use that some reference of a model stands for. -/
def Uses (model : Model) (use : ShapeUse) : Prop :=
  ∃ reference, model.Mentions reference ∧ model.use reference = .ok use

end Model

/-! ## Entries -/

theorem lookup_map_snd {α β : Type} (entries : List (String × α)) (change : String → α → β)
    (key : String) :
    (entries.map fun entry => (entry.1, change entry.1 entry.2)).lookup key =
      (entries.lookup key).map (change key) := by
  induction entries with
  | nil => rfl
  | cons entry rest ih =>
    obtain ⟨first, value⟩ := entry
    by_cases same : key = first
    · subst same
      simp
    · simpa [List.lookup_cons, beq_false_of_ne same] using ih

theorem lookup_filter_fst {α : Type} (entries : List (String × α)) (keep : String → Bool)
    (key : String) :
    (entries.filter fun entry => keep entry.1).lookup key =
      if keep key then entries.lookup key else none := by
  induction entries with
  | nil => simp
  | cons entry rest ih =>
    obtain ⟨first, value⟩ := entry
    by_cases same : key = first
    · subst same
      by_cases kept : keep key
      · simp [kept]
      · simpa [kept] using ih
    · by_cases kept : keep first
      · simpa [kept, List.lookup_cons, beq_false_of_ne same] using ih
      · simpa [kept, List.lookup_cons, beq_false_of_ne same] using ih

/-- If no key has two entries, what is found under a key is its entry. -/
theorem lookup_eq_some_iff_mem {α : Type} {entries : List (String × α)}
    (distinct : (entries.map Prod.fst).Nodup) {key : String} {value : α} :
    entries.lookup key = some value ↔ (key, value) ∈ entries := by
  induction entries with
  | nil => simp
  | cons entry rest ih =>
    obtain ⟨first, held⟩ := entry
    obtain ⟨absent, distinct⟩ := List.nodup_cons.mp distinct
    by_cases same : key = first
    · subst same
      have elsewhere : (key, value) ∉ rest := fun here => absent (List.mem_map.mpr ⟨_, here, rfl⟩)
      simp [elsewhere, eq_comm]
    · simp [List.lookup_cons, beq_false_of_ne same, same, ih distinct]

namespace Model

variable {model : Model}

/-- Overriding entries come first. -/
theorem lookup_override (entries traits : List (String × Value)) (key : String) :
    (override entries traits).lookup key = (traits.lookup key).or (entries.lookup key) := by
  rw [override, List.lookup_append,
    lookup_map_snd entries (fun name value => (traits.lookup name).getD value),
    lookup_filter_fst traits (fun name => (entries.lookup name).isNone)]
  cases own : entries.lookup key <;> cases traits.lookup key <;> simp

/-! ## Uses -/

/-- Shapes are found under texts. -/
theorem shape_ok {name : Value} {found : String} {entry : Value}
    (shape : model.shape name = .ok (found, entry)) : name = .text found := by
  obtain ⟨_, _, shape⟩ := Fault.bind_ok_iff.mp shape
  split at shape
  · split at shape
    · split at shape
      · cases shape
        rfl
      · cases shape
    · cases shape
  · obtain ⟨_, _, shape⟩ := Fault.bind_ok_iff.mp shape
    cases shape
  · cases shape

/-- A use of a named shape has the form of the shape, and its entries with the traits put
over them. -/
theorem useNamed_ok_iff {name : Value} {traits : List (String × Value)} {use : ShapeUse} :
    model.useNamed name traits = .ok use ↔ ∃ entries type key,
      model.shape name = .ok (use.name, .object entries) ∧ entries.lookup "type" = some type ∧
        type.key = .ok key ∧ use = ⟨use.name, .ofType type, override entries traits⟩ := by
  rw [useNamed, Fault.bind_ok_iff]
  constructor
  · rintro ⟨⟨found, entry⟩, shape, made⟩
    -- Only an object with a type that can be looked up is turned into a use.
    cases entry with
    | object entries =>
      cases typed : entries.lookup "type" with
      | none =>
        simp only [typed] at made
        cases made
      | some type =>
        simp only [typed] at made
        obtain ⟨key, hashable, made⟩ := Fault.bind_ok_iff.mp made
        cases made
        exact ⟨entries, type, key, shape, typed, hashable, rfl⟩
    | _ => cases made
  · rintro ⟨entries, type, key, shape, typed, hashable, made⟩
    refine ⟨_, shape, ?_⟩
    simp only [typed, hashable, bind, Except.bind, pure, Except.pure]
    rw [← made]

/-- What a reference stands for: the shape that it names, with the reference's own
entries put over those of the shape. -/
theorem use_ok {reference : Value} {use : ShapeUse} (found : model.use reference = .ok use) :
    ∃ fields entries, reference = .object fields ∧
      model.shape (.text use.name) = .ok (use.name, .object entries) ∧
      (∃ type key, entries.lookup "type" = some type ∧ type.key = .ok key ∧
        use.form = .ofType type) ∧
      ∀ key, key ≠ "shape" → use.get? key = (fields.lookup key).or (entries.lookup key) := by
  cases reference with
  | object fields =>
    rw [Model.use] at found
    cases named : fields.lookup "shape" with
    | none =>
      simp only [named] at found
      cases found
    | some name =>
      simp only [named] at found
      obtain ⟨entries, type, key, shape, typed, hashable, made⟩ := useNamed_ok_iff.mp found
      rw [shape_ok shape] at shape
      refine ⟨fields, entries, rfl, shape, ⟨type, key, typed, hashable, by rw [made]⟩, ?_⟩
      intro key other
      rw [ShapeUse.get?, made, lookup_override,
        lookup_filter_fst fields (fun name => decide (name ≠ "shape"))]
      simp [other]
  | _ => cases found

namespace Uses

variable {use part : ShapeUse}

/-- What the entries of a use refer to is a reference of the model. -/
theorem mentions {reference : Value} (uses : model.Uses use)
    (held : Holds use.entries reference) : model.Mentions reference := by
  obtain ⟨own, mentions, found⟩ := uses
  obtain ⟨fields, entries, rfl, shape, -, get?⟩ := use_ok found
  -- An entry of a use stands in its reference or, if not there, in its shape.
  have above {key : String} {value : Value} (other : key ≠ "shape")
      (here : use.entries.lookup key = some value) :
      fields.lookup key = some value ∨ entries.lookup key = some value := by
    have both : use.entries.lookup key = _ := get? key other
    rw [both, Option.or_eq_some_iff] at here
    exact here.imp id And.right
  cases held with
  | member here listed =>
    rcases above (by decide) here with here | here
    · exact .trait mentions (.member here listed)
    · exact .shape shape (.member here listed)
  | item here =>
    rcases above (by decide) here with here | here
    · exact .trait mentions (.item here)
    · exact .shape shape (.item here)
  | entryValue here =>
    rcases above (by decide) here with here | here
    · exact .trait mentions (.entryValue here)
    · exact .shape shape (.entryValue here)

/-- What the entries of a use refer to is used by the model. -/
theorem of_holds {reference : Value} (uses : model.Uses use) (held : Holds use.entries reference)
    (stands : model.use reference = .ok part) : model.Uses part :=
  ⟨reference, uses.mentions held, stands⟩

theorem of_members {entries : List (String × ShapeUse)} (uses : model.Uses use)
    (members : use.members model = .ok entries) {entry : String × ShapeUse}
    (listed : entry ∈ entries) : model.Uses entry.2 := by
  rw [ShapeUse.members] at members
  split at members
  · split at members
    · cases members
      cases listed
    · next own here =>
      obtain ⟨⟨key, reference⟩, held, resolved⟩ :=
        Fault.exists_of_forall₂ (Fault.mapM_ok_iff.mp members) listed
      obtain ⟨part, stands, made⟩ := Fault.bind_ok_iff.mp resolved
      cases made
      exact uses.of_holds (.member here held) stands
    · cases members
  · cases members

theorem of_held {form : ShapeForm} {key : String} (uses : model.Uses use)
    (side : key = "member" ∨ key = "value") (held : use.held model form key = .ok part) :
    model.Uses part := by
  rw [ShapeUse.held] at held
  split at held
  · split at held
    · next reference here =>
      refine uses.of_holds ?_ held
      rcases side with rfl | rfl
      · exact .item here
      · exact .entryValue here
    · cases held
  · cases held

theorem of_item (uses : model.Uses use) (item : use.item model = .ok part) :
    model.Uses part := uses.of_held (.inl rfl) item

theorem of_entryValue (uses : model.Uses use) (value : use.entryValue model = .ok part) :
    model.Uses part := uses.of_held (.inr rfl) value

end Uses

end Model

end ElmBindgen
