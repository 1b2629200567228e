import ElmBindgen.Value.Access

/-!
# Service models

A model holds the metadata, the operations and the shapes of a service
description. Shapes refer to each other by name; a reference may carry traits,
which override entries of the shape that it names for this one use.

## Main definitions

* `Model`: a service description
* `ShapeUse`: a shape as one reference uses it
* `Model.use`: the use that a reference stands for
* `ShapeUse.members`, `ShapeUse.item`, `ShapeUse.entryValue`: what a use consists of
* `Model.operationNames`, `Model.input`, `Model.output`: the operations
-/

namespace ElmBindgen

/-- A service description. -/
structure Model where
  metadata : Value
  operations : Option Value
  shapes : Value

/-- The forms of shapes, by what they consist of. -/
inductive ShapeForm where
  | record
  | list
  | map
  | string
  | plain
  deriving DecidableEq, Repr

namespace ShapeForm

/-- The form of the shapes of a type. -/
def ofType : Value → ShapeForm
  | .text "structure" => .record
  | .text "list" => .list
  | .text "map" => .map
  | .text "string" => .string
  | _ => .plain

end ShapeForm

/-- A shape as one reference uses it. Its form follows from the shape's own
type, whereas its entries include the traits of the reference. -/
structure ShapeUse where
  name : String
  form : ShapeForm
  entries : List (String × Value)

namespace Model

/-! ## Resolving references -/

/-- The model of a service description. -/
def ofDescription : Value → Except Fault Model
  | .object fields => .ok {
      metadata := (fields.lookup "metadata").getD (.object [])
      operations := fields.lookup "operations"
      shapes := (fields.lookup "shapes").getD (.object []) }
  | _ => .error .missingAttribute

/-- The entry of a shape in the model. The characters of a text are no shapes. -/
def shape (model : Model) (name : Value) : Except Fault (String × Value) := do
  let _ ← name.key
  match model.shapes with
  | .object shapes =>
    match name with
    | .text s =>
      match shapes.lookup s with
      | some entry => return (s, entry)
      | none => throw (.unknownShape name)
    | _ => throw (.unknownShape name)
  | .text s =>
    let _ ← name.position s.length
    throw .wrongType
  | _ => throw .wrongType

/-- Entries with some of them replaced and the new ones added at the end. -/
def override (entries traits : List (String × Value)) : List (String × Value) :=
  entries.map (fun entry => (entry.1, (traits.lookup entry.1).getD entry.2)) ++
    traits.filter fun trait => (entries.lookup trait.1).isNone

/-- The use of a named shape with some traits. -/
def useNamed (model : Model) (name : Value) (traits : List (String × Value)) :
    Except Fault ShapeUse := do
  let (name, entry) ← model.shape name
  match entry with
  | .object entries =>
    match entries.lookup "type" with
    | some type =>
      let _ ← type.key
      return ⟨name, .ofType type, override entries traits⟩
    | none => throw .untypedShape
  | _ => throw .wrongType

/-- The use that a reference stands for. -/
def use (model : Model) : Value → Except Fault ShapeUse
  | .object fields =>
    match fields.lookup "shape" with
    | some name => model.useNamed name (fields.filter (·.1 ≠ "shape"))
    | none => .error .namelessReference
  | .text _ => .error .missingAttribute
  | _ => .error .wrongType

/-! ## Operations -/

/-- The names of the operations, in order. -/
def operationNames (model : Model) : Except Fault (List Value) :=
  match model.operations with
  | some operations => operations.elements
  | none => .ok []

/-- The entry of an operation. The characters of a text are no operations. -/
def operation (model : Model) (name : Value) : Except Fault Value := do
  let _ ← name.key
  match model.operations with
  | none => throw (.unknownOperation name)
  | some (.object operations) =>
    match name with
    | .text s =>
      match operations.lookup s with
      | some (.object entries) => return .object entries
      | some _ => throw .missingAttribute
      | none => throw (.unknownOperation name)
    | _ => throw (.unknownOperation name)
  | some (.text s) =>
    let _ ← name.position s.length
    throw .missingAttribute
  | some _ => throw .wrongType

/-- The use under a key of an operation, if the operation has one. -/
def payload (model : Model) (operation : Value) (key : String) :
    Except Fault (Option ShapeUse) :=
  match operation.get? key with
  | some reference => some <$> model.use reference
  | none => .ok none

/-! ## Bounds -/

/-- A bound on the length of a chain of lists and maps. Every link of a chain
follows another reference of the description, unless the chain is endless. -/
def chainBound (model : Model) : Nat :=
  model.shapes.weight + ((model.operations.map Value.weight).getD 0) + 1

/-- The number of shapes of a model. -/
def shapeCount (model : Model) : Nat :=
  match model.shapes with
  | .object shapes => shapes.length
  | _ => 0

end Model

/-! ## What a use consists of -/

namespace ShapeUse

/-- An entry of a use. -/
def get? (use : ShapeUse) (key : String) : Option Value := use.entries.lookup key

/-- The type of a use. -/
def type (use : ShapeUse) : Value := (use.get? "type").getD .null

/-- The names that the use lists as required. -/
def required (use : ShapeUse) : Value := (use.get? "required").getD (.list [])

/-- The values of an enumeration. Only strings have any. -/
def enum (use : ShapeUse) : Except Fault Value :=
  if use.form = .string then .ok ((use.get? "enum").getD (.list []))
  else .error .missingAttribute

/-- The members of a structure, all resolved, in order. -/
def members (model : Model) (use : ShapeUse) : Except Fault (List (String × ShapeUse)) :=
  if use.form = .record then
    match use.get? "members" with
    | none => .ok []
    | some (.object members) =>
      members.mapM fun member => do return (member.1, ← model.use member.2)
    | some _ => .error .missingAttribute
  else .error .missingAttribute

/-- What a list or a map holds, under the key of its form. -/
def held (model : Model) (use : ShapeUse) (expected : ShapeForm) (key : String) :
    Except Fault ShapeUse :=
  if use.form = expected then
    match use.get? key with
    | some reference => model.use reference
    | none => .error (.missingKey key)
  else .error .missingAttribute

/-- The items of a list. -/
def item (model : Model) (use : ShapeUse) : Except Fault ShapeUse :=
  use.held model .list "member"

/-- The values of a map. -/
def entryValue (model : Model) (use : ShapeUse) : Except Fault ShapeUse :=
  use.held model .map "value"

end ShapeUse

end ElmBindgen
