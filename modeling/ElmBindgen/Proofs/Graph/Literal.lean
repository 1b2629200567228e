import ElmBindgen.Proofs.Graph.Reference
import ElmBindgen.Resolver.Resolution

/-!
# Literal models

Where no reference overrides what the shape that it names is made of, a use is told by
the name of its shape: uses under one name have the same type and the same members.

## Main definitions

* `ShapeUse.Alike`: uses that are made of the same
* `Model.shapeNamed`: the use of a shape by its bare name
* `Model.Literal`: no reference overrides what a shape is made of

## Main results

* `Model.Uses.bare`: where a use does not differ from the bare use of its shape
* `Model.Literal.alike`, `Model.Literal.alike_of_name`: in a literal model a use is like the
  bare use of its shape, and like every other use of its shape
-/

namespace ElmBindgen

namespace Model

/-- The entries that say what a shape is made of. -/
def shapeKeys : List String := ["type", "enum", "required", "members", "member", "value"]

/-- No reference overrides what the shape that it names is made of. -/
def Literal (model : Model) : Prop :=
  ∀ reference, model.Mentions reference → ∀ key ∈ shapeKeys, reference.get? key = none

/-- The use of a shape by its bare name. -/
def shapeNamed (model : Model) (name : String) : Except Fault ShapeUse :=
  model.useNamed (.text name) []

end Model

/-- Uses of one shape that are made of the same. -/
structure ShapeUse.Alike (first second : ShapeUse) : Prop where
  name : first.name = second.name
  form : first.form = second.form
  get? : ∀ key ∈ Model.shapeKeys, first.get? key = second.get? key

namespace ShapeUse.Alike

variable {first second : ShapeUse}

theorem type (alike : first.Alike second) : first.type = second.type := by
  rw [ShapeUse.type, ShapeUse.type, alike.get? "type" (by decide)]

theorem handler (alike : first.Alike second) : first.handler = second.handler := by
  rw [ShapeUse.handler, ShapeUse.handler, alike.type]

theorem members (alike : first.Alike second) (model : Model) :
    first.members model = second.members model := by
  rw [ShapeUse.members, ShapeUse.members, alike.form, alike.get? "members" (by decide)]

theorem requiredKeys (alike : first.Alike second) : first.requiredKeys = second.requiredKeys := by
  rw [ShapeUse.requiredKeys, ShapeUse.requiredKeys, ShapeUse.required, ShapeUse.required,
    alike.get? "required" (by decide)]

theorem enum (alike : first.Alike second) : first.enum = second.enum := by
  rw [ShapeUse.enum, ShapeUse.enum, alike.form, alike.get? "enum" (by decide)]

theorem union (alike : first.Alike second) : first.union = second.union := by
  rw [ShapeUse.union, ShapeUse.union, alike.name, alike.enum]

theorem symm (alike : first.Alike second) : second.Alike first where
  name := alike.name.symm
  form := alike.form.symm
  get? := fun key listed => (alike.get? key listed).symm

theorem trans {third : ShapeUse} (alike : first.Alike second) (alike' : second.Alike third) :
    first.Alike third where
  name := alike.name.trans alike'.name
  form := alike.form.trans alike'.form
  get? := fun key listed => (alike.get? key listed).trans (alike'.get? key listed)

end ShapeUse.Alike

/-- Under keys for which no reference has an entry, a use has the entries of the bare use of its
shape. -/
theorem Model.Uses.bare {model : Model} {use : ShapeUse} (uses : model.Uses use)
    {keys : List String} (other : "shape" ∉ keys)
    (plain : ∀ reference, model.Mentions reference → ∀ key ∈ keys, reference.get? key = none) :
    ∃ bare, model.shapeNamed use.name = .ok bare ∧ use.name = bare.name ∧ use.form = bare.form ∧
      ∀ key ∈ keys, use.get? key = bare.get? key := by
  obtain ⟨reference, mentions, found⟩ := uses
  obtain ⟨fields, entries, rfl, shape, ⟨type, key, typed, hashable, form⟩, get?⟩ := use_ok found
  refine ⟨⟨use.name, .ofType type, override entries []⟩,
    useNamed_ok_iff.mpr ⟨entries, type, key, shape, typed, hashable, rfl⟩, rfl, form, ?_⟩
  intro key listed
  -- The reference has no say about the key, and neither does the bare one.
  have absent : fields.lookup key = none := plain _ mentions key listed
  rw [get? key fun same => other (same ▸ listed), absent, Option.none_or]
  exact (lookup_override entries [] key).symm

/-- In a literal model a use is like the bare use of its shape. -/
theorem Model.Literal.alike {model : Model} (literal : model.Literal) {use : ShapeUse}
    (uses : model.Uses use) :
    ∃ bare, model.shapeNamed use.name = .ok bare ∧ use.Alike bare := by
  obtain ⟨bare, named, name, form, get?⟩ := uses.bare (by decide) literal
  exact ⟨bare, named, name, form, get?⟩

/-- In a literal model uses of one shape are alike. -/
theorem Model.Literal.alike_of_name {model : Model} (literal : model.Literal)
    {use other : ShapeUse} (uses : model.Uses use) (uses' : model.Uses other)
    (same : use.name = other.name) : use.Alike other := by
  obtain ⟨bare, found, alike⟩ := literal.alike uses
  obtain ⟨bare', found', alike'⟩ := literal.alike uses'
  rw [same] at found
  cases found.symm.trans found'
  exact alike.trans alike'.symm

end ElmBindgen
