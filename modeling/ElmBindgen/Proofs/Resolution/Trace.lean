import ElmBindgen.Proofs.Resolution.Reach

/-!
# Traced resolution

Resolution with a record of its work: whenever a structure or a string is about to be turned
into a definition, the name of its shape is noted. What is noted stays noted, whether the
definition is made in the end or not. The bounds are parameters here, so that it can be asked
what they have a say in.

## Main definitions

* `Trace`, `Traced`: a slot table with the names noted so far, and steps on it
* `Traced.start`: notes a name
* `Model.tracedReach`: reaching a shape, with a note when its definition is started
* `Model.tracedAskAll`: the answers to a sequence of queries, with all notes
-/

namespace ElmBindgen

open Elm (Category Definition Member Payload Record)

/-- A slot table and the names of the shapes whose definitions have been started, in order. -/
structure Trace where
  table : SlotTable
  started : List String
  deriving DecidableEq, Repr

/-- A step on a trace. When it fails, the trace stays as the step left it. -/
abbrev Traced := ExceptT Fault (StateM Trace)

namespace Traced

variable {α β : Type}

/-- A step on the table that starts no definition. -/
def lift (step : Resolution α) : Traced α :=
  fun trace => ((step.on trace.table).1, { trace with table := (step.on trace.table).2 })

/-- The definition of a shape is started. -/
def start (name : String) : Traced Unit :=
  fun trace => (.ok (), { trace with started := trace.started ++ [name] })

/-- Runs a step on a trace. -/
def on (step : Traced α) (trace : Trace) : Except Fault α × Trace := step trace

/-! ## How steps run -/

@[simp] theorem on_pure (a : α) (trace : Trace) :
    (pure a : Traced α).on trace = (.ok a, trace) := rfl

@[simp] theorem on_throw (fault : Fault) (trace : Trace) :
    (throw fault : Traced α).on trace = (.error fault, trace) := rfl

@[simp] theorem on_lift (step : Resolution α) (trace : Trace) :
    (lift step).on trace =
      ((step.on trace.table).1, { trace with table := (step.on trace.table).2 }) := rfl

@[simp] theorem on_start (name : String) (trace : Trace) :
    (start name).on trace = (.ok (), { trace with started := trace.started ++ [name] }) := rfl

/-- A failing step ends a sequence and leaves its trace behind. -/
theorem on_bind (step : Traced α) (next : α → Traced β) (trace : Trace) :
    (step >>= next).on trace =
      match step.on trace with
      | (.ok a, after) => (next a).on after
      | (.error fault, after) => (.error fault, after) := by
  simp only [on, bind, ExceptT.bind, ExceptT.mk, StateT.bind]
  rcases step trace with ⟨_ | _, _⟩ <;> rfl

end Traced

/-- What is reached for a leaf. -/
def Leaf.trace (reach : ShapeUse → Category → Traced Unit) : Leaf → Traced Unit
  | named use => reach use .other
  | plain _ => pure ()

namespace Model

variable (model : Model)

/-! ## Reaching shapes -/

/-- A member of a record, as `Model.member` makes it. -/
def tracedMember (reach : ShapeUse → Category → Traced Unit) (bound : Nat)
    (required : List Key) (entry : String × ShapeUse) : Traced Member := do
  let chain ← Traced.lift (Resolution.ofExcept (model.chain bound entry.2))
  chain.leaf.trace reach
  return chain.member required entry.1

/-- The record of a structure, as `Model.record` makes it. -/
def tracedRecord (reach : ShapeUse → Category → Traced Unit) (bound : Nat)
    (use : ShapeUse) (category : Category) : Traced Record := do
  let required ← Traced.lift (Resolution.ofExcept use.requiredKeys)
  let members ← Traced.lift (Resolution.ofExcept (use.members model))
  let members ← members.mapM (model.tracedMember reach bound required)
  return ⟨Elm.typeName use.name, category, members⟩

/-- Reaches a shape as `Model.reach` does, and notes when a record or a union is started. -/
def tracedReach (bound : Nat) : Nat → ShapeUse → Category → Traced Unit
  | 0, _, _ => throw .endlessNesting
  | depth + 1, use, category => do
    match (← Traced.lift Resolution.table).find? use.name with
    | some _ => Traced.lift (Resolution.update (·.promote use.name category))
    | none =>
      Traced.lift (Resolution.update (·.reserve use.name))
      match use.handler with
      | .record =>
        Traced.start use.name
        let record ← model.tracedRecord (tracedReach bound depth) bound use category
        Traced.lift (Resolution.update (·.fill use.name (.record record)))
      | .union =>
        Traced.start use.name
        let union ← Traced.lift (Resolution.ofExcept use.union)
        Traced.lift (Resolution.update (·.fill use.name (.union union)))
      | .keep => pure ()
      | .giveUp => Traced.lift (Resolution.update (·.drop use.name))

/-! ## Queries -/

variable (bound depth : Nat)

/-- What an operation takes or returns through a use. -/
def tracedPayload (use : Option ShapeUse) (category : Category) : Traced Payload := do
  match use with
  | none => return .nothing none
  | some use =>
    model.tracedReach bound depth use category
    match (← Traced.lift Resolution.table).definition? use.name with
    | some definition => return .defined definition
    | none => return .nothing (some (Elm.typeName use.name))

/-- What an operation takes and what it returns. -/
def tracedOperation (name : Value) : Traced (Payload × Payload) := do
  let operation ← Traced.lift (Resolution.ofExcept (model.operation name))
  let input ← Traced.lift (Resolution.ofExcept (model.payload operation "input"))
  let input ← model.tracedPayload bound depth input .request
  let output ← Traced.lift (Resolution.ofExcept (model.payload operation "output"))
  let output ← model.tracedPayload bound depth output .response
  return (input, output)

/-- The definitions of all operations. -/
def tracedDefinitions : Traced (List Definition) := do
  let names ← Traced.lift (Resolution.ofExcept model.operationNames)
  names.forM fun name => discard (model.tracedOperation bound depth name)
  return (← Traced.lift Resolution.table).definitions

/-- The answer to a query. -/
def tracedAsk : Query → Traced Finding
  | .operation name => do
    let (input, output) ← model.tracedOperation bound depth name
    return .payloads input output
  | .all => do return .definitions (← model.tracedDefinitions bound depth)

/-- The answers to a sequence of queries, and the trace after it. -/
def tracedAskAll (trace : Trace) : List Query → List (Except Fault Finding) × Trace
  | [] => ([], trace)
  | query :: rest =>
    let (answer, after) := (model.tracedAsk bound depth query).on trace
    let (answers, last) := tracedAskAll after rest
    (answer :: answers, last)

end Model

end ElmBindgen
