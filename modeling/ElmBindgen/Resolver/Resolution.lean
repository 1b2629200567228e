import ElmBindgen.Resolver.Chain
import ElmBindgen.Resolver.SlotTable

/-!
# Resolution

The definitions of all shapes that operations reach are collected in a slot
table. A shape's slot is reserved before its members are resolved, so that a
reference back to it ends there. A step that fails keeps the table as it left it.

## Main definitions

* `Resolution`: steps on a slot table that may fail
* `Model.resolve`: reaching a shape in a category
* `Model.operationPayloads`: what an operation takes and returns
* `Model.definitions`: the definitions of all operations
-/

namespace ElmBindgen

open Elm (Category Definition Fragment Member Payload Record Union Variant)

/-- A step on a slot table. When it fails, the table stays as the step left it. -/
abbrev Resolution := ExceptT Fault (StateM SlotTable)

namespace Resolution

/-- A step that leaves the table alone. -/
def ofExcept {α : Type} (result : Except Fault α) : Resolution α :=
  fun table => (result, table)

/-- A step that only changes the table. -/
def update (change : SlotTable → SlotTable) : Resolution Unit :=
  fun table => (.ok (), change table)

/-- The table. -/
def table : Resolution SlotTable := fun table => (.ok table, table)

/-- Runs a step on a table. -/
def on {α : Type} (step : Resolution α) (table : SlotTable) : Except Fault α × SlotTable :=
  step table

/-! ## How steps run -/

variable {α β : Type}

@[simp] theorem on_pure (a : α) (table : SlotTable) :
    (pure a : Resolution α).on table = (.ok a, table) := rfl

@[simp] theorem on_throw (fault : Fault) (table : SlotTable) :
    (throw fault : Resolution α).on table = (.error fault, table) := rfl

@[simp] theorem on_ofExcept (result : Except Fault α) (table : SlotTable) :
    (ofExcept result).on table = (result, table) := rfl

@[simp] theorem on_update (change : SlotTable → SlotTable) (table : SlotTable) :
    (update change).on table = (.ok (), change table) := rfl

@[simp] theorem on_table (slots : SlotTable) : table.on slots = (.ok slots, slots) := rfl

/-- A failing step ends a sequence and leaves its table behind. -/
theorem on_bind (step : Resolution α) (next : α → Resolution β) (table : SlotTable) :
    (step >>= next).on table =
      match step.on table with
      | (.ok a, after) => (next a).on after
      | (.error fault, after) => (.error fault, after) := by
  simp only [on, bind, ExceptT.bind, ExceptT.mk, StateT.bind]
  rcases step table with ⟨_ | _, _⟩ <;> rfl

end Resolution

/-! ## From uses to definitions -/

/-- How the shape of a use is turned into a definition: a record is made of its
members or a union of its values. Other shapes have no definition, and their slot
is either kept in reserve or given up. -/
inductive Handler where
  | record
  | union
  | keep
  | giveUp
  deriving DecidableEq, Repr

namespace ShapeUse

/-- How a use is turned into a definition, by its type. A shape of type `named`
keeps its slot in reserve. -/
def handler (use : ShapeUse) : Handler :=
  match use.type with
  | .text "structure" => .record
  | .text "string" => .union
  | .text "named" => .keep
  | _ => .giveUp

/-- The names that are required. -/
def requiredKeys (use : ShapeUse) : Except Fault (List Key) := do
  (← use.required.elements).mapM Value.key

/-- A variant of a union type for a value of an enumeration. -/
def variant (type : String) : Value → Except Fault Variant
  | .text wire => .ok ⟨Elm.constructorName type wire, wire⟩
  | _ => .error .wrongType

/-- The union of an enumeration. -/
def union (use : ShapeUse) : Except Fault Union := do
  let type := Elm.typeName use.name
  let values ← (← use.enum).elements
  return ⟨type, ← values.mapM (variant type)⟩

end ShapeUse

namespace Model

variable (model : Model)

/-! ## Reaching shapes

What a member refers to is reached before the member is made, so `reach` and
`record` depend on each other. The cycle is cut by passing the one to the other. -/

/-- The fragment of a member's shape. Its leaf is reached if it has a
definition. -/
def memberFragment (reach : ShapeUse → Category → Resolution Unit) (bound : Nat)
    (use : ShapeUse) : Resolution Fragment := do
  let chain ← Resolution.ofExcept (model.chain bound use)
  match chain.leaf with
  | .named leaf => reach leaf .other
  | .plain _ => pure ()
  return chain.fragment

/-- A member of a record. -/
def member (reach : ShapeUse → Category → Resolution Unit) (bound : Nat)
    (required : List Key) (entry : String × ShapeUse) : Resolution Member := do
  let fragment ← model.memberFragment reach bound entry.2
  if Key.text entry.1 ∈ required then return ⟨entry.1, true, fragment⟩
  else return ⟨entry.1, false, fragment.optional⟩

/-- The record of a structure. -/
def record (reach : ShapeUse → Category → Resolution Unit) (bound : Nat)
    (use : ShapeUse) (category : Category) : Resolution Record := do
  let required ← Resolution.ofExcept use.requiredKeys
  let members ← Resolution.ofExcept (use.members model)
  let members ← members.mapM (model.member reach bound required)
  return ⟨Elm.typeName use.name, category, members⟩

/-- Reaches a shape in a category. A shape with a slot may change its category;
any other gets a slot and, by its type, a definition. `depth` bounds how deeply
structures are nested, `bound` the chains between them. -/
def reach (bound : Nat) : Nat → ShapeUse → Category → Resolution Unit
  | 0, _, _ => throw .endlessNesting
  | depth + 1, use, category => do
    match (← Resolution.table).find? use.name with
    | some _ => Resolution.update (·.promote use.name category)
    | none =>
      Resolution.update (·.reserve use.name)
      match use.handler with
      | .record =>
        let record ← model.record (reach bound depth) bound use category
        Resolution.update (·.fill use.name (.record record))
      | .union =>
        let union ← Resolution.ofExcept use.union
        Resolution.update (·.fill use.name (.union union))
      | .keep => pure ()
      | .giveUp => Resolution.update (·.drop use.name)

/-- Reaches a shape in a category. Every structure that is entered has a name of
its own, so the number of shapes bounds the depth. -/
def resolve (use : ShapeUse) (category : Category) : Resolution Unit :=
  model.reach model.chainBound (model.shapeCount + 1) use category

/-! ## Operations -/

/-- What an operation takes or returns through a use. -/
def resolvePayload (use : Option ShapeUse) (category : Category) : Resolution Payload := do
  match use with
  | none => return .nothing none
  | some use =>
    model.resolve use category
    match (← Resolution.table).definition? use.name with
    | some definition => return .defined definition
    | none => return .nothing (some (Elm.typeName use.name))

/-- What an operation takes and what it returns. -/
def operationPayloads (name : Value) : Resolution (Payload × Payload) := do
  let operation ← Resolution.ofExcept (model.operation name)
  let input ← Resolution.ofExcept (model.payload operation "input")
  let input ← model.resolvePayload input .request
  let output ← Resolution.ofExcept (model.payload operation "output")
  let output ← model.resolvePayload output .response
  return (input, output)

/-- The definitions of all operations, each once, in the order in which they were
first reached. -/
def definitions : Resolution (List Definition) := do
  let names ← Resolution.ofExcept model.operationNames
  names.forM fun name => discard (model.operationPayloads name)
  return (← Resolution.table).definitions

end Model

end ElmBindgen
