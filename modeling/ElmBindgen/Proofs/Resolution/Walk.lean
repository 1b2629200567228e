import ElmBindgen.Proofs.Resolution.Growth
import ElmBindgen.Proofs.Result

/-!
# Walks

A walk is what a successful resolution does, told without steps that may fail, without
a bound on the depth and without answers: it goes through an agenda of uses, and a
structure without a slot is gone through before the rest of the agenda.

## Main definitions

* `Model.Walk`: a walk through an agenda from one table to another
* `Model.references`, `Model.payloads`: what operations refer to, in order

## Main results

* `Model.walk_of_reach`: reaching a shape successfully is a walk
* `Model.walk_of_definitions`: collecting all definitions is a walk through the payloads
* `Model.Walk.split`: a walk through two agendas is a walk through each
-/

namespace ElmBindgen

open Elm (Category Definition Member Payload Record)

namespace Model

variable {model : Model}

/-- A walk through an agenda, with the tables before and after it. -/
inductive Walk (model : Model) : SlotTable → List (ShapeUse × Category) → SlotTable → Prop
  | done (table) : Walk model table [] table
  | known {table after use category rest} (slot : use.name ∈ table.names)
      (onward : Walk model (table.promote use.name category) rest after) :
      Walk model table ((use, category) :: rest) after
  | record {table middle after use category record targets rest} (fresh : use.name ∉ table.names)
      (handler : use.handler = .record) (outline : model.Outlines use category record targets)
      (below : Walk model (table.reserve use.name) (targets.map (·, .other)) middle)
      (onward : Walk model (middle.fill use.name (.record record)) rest after) :
      Walk model table ((use, category) :: rest) after
  | union {table after use category union rest} (fresh : use.name ∉ table.names)
      (handler : use.handler = .union) (made : use.union = .ok union)
      (onward : Walk model ((table.reserve use.name).fill use.name (.union union)) rest after) :
      Walk model table ((use, category) :: rest) after
  | keep {table after use category rest} (fresh : use.name ∉ table.names)
      (handler : use.handler = .keep) (onward : Walk model (table.reserve use.name) rest after) :
      Walk model table ((use, category) :: rest) after
  | giveUp {table after use category rest} (fresh : use.name ∉ table.names)
      (handler : use.handler = .giveUp) (onward : Walk model table rest after) :
      Walk model table ((use, category) :: rest) after

/-! ## What operations refer to -/

/-- The uses that an operation takes and returns, if it has them. -/
def references (model : Model) (name : Value) :
    Except Fault (Option ShapeUse × Option ShapeUse) := do
  let operation ← model.operation name
  let input ← model.payload operation "input"
  let output ← model.payload operation "output"
  return (input, output)

/-- The uses of an operation with the categories in which they are reached. -/
def payloadsOf (references : Option ShapeUse × Option ShapeUse) : List (ShapeUse × Category) :=
  (references.1.map (·, .request)).toList ++ (references.2.map (·, .response)).toList

/-- The uses of an operation, as far as its references can be resolved. -/
def operationUses (model : Model) (name : Value) : List (ShapeUse × Category) :=
  match model.references name with
  | .ok references => payloadsOf references
  | .error _ => []

/-- The uses of all operations: input before output, in the order of the operations. -/
def payloads (model : Model) : List (ShapeUse × Category) :=
  (model.operationNames.toOption.getD []).flatMap model.operationUses

theorem references_ok_iff {name : Value} {input output : Option ShapeUse} :
    model.references name = .ok (input, output) ↔ ∃ operation,
      model.operation name = .ok operation ∧ model.payload operation "input" = .ok input ∧
        model.payload operation "output" = .ok output := by
  rw [references, Fault.bind_ok_iff]
  refine exists_congr fun operation => and_congr_right fun _ => ?_
  constructor
  · intro found
    obtain ⟨input, inputUse, found⟩ := Fault.bind_ok_iff.mp found
    obtain ⟨output, outputUse, made⟩ := Fault.bind_ok_iff.mp found
    cases made
    exact ⟨inputUse, outputUse⟩
  · rintro ⟨inputUse, outputUse⟩
    exact Fault.bind_ok_iff.mpr ⟨input, inputUse, Fault.bind_ok_iff.mpr ⟨output, outputUse, rfl⟩⟩

/-! ## Parts of walks -/

namespace Walk

variable {table middle after : SlotTable} {agenda first second : List (ShapeUse × Category)}

theorem append (before : model.Walk table first middle) (onward : model.Walk middle second after) :
    model.Walk table (first ++ second) after := by
  induction before with
  | done table => exact onward
  | known slot _ ih => exact .known slot (ih onward)
  | record fresh handler outline below _ _ ih =>
    exact .record fresh handler outline below (ih onward)
  | union fresh handler made _ ih => exact .union fresh handler made (ih onward)
  | keep fresh handler _ ih => exact .keep fresh handler (ih onward)
  | giveUp fresh handler _ ih => exact .giveUp fresh handler (ih onward)

/-- A walk through two agendas is a walk through one and then the other. -/
theorem split (walk : model.Walk table (first ++ second) after) :
    ∃ middle, model.Walk table first middle ∧ model.Walk middle second after := by
  induction first generalizing table with
  | nil => exact ⟨table, .done table, walk⟩
  | cons entry rest ih =>
    rw [List.cons_append] at walk
    cases walk with
    | known slot onward =>
      obtain ⟨middle, before, last⟩ := ih onward
      exact ⟨middle, .known slot before, last⟩
    | record fresh handler outline below onward =>
      obtain ⟨middle, before, last⟩ := ih onward
      exact ⟨middle, .record fresh handler outline below before, last⟩
    | union fresh handler made onward =>
      obtain ⟨middle, before, last⟩ := ih onward
      exact ⟨middle, .union fresh handler made before, last⟩
    | keep fresh handler onward =>
      obtain ⟨middle, before, last⟩ := ih onward
      exact ⟨middle, .keep fresh handler before, last⟩
    | giveUp fresh handler onward =>
      obtain ⟨middle, before, last⟩ := ih onward
      exact ⟨middle, .giveUp fresh handler before, last⟩

theorem uncons {entry : ShapeUse × Category} (walk : model.Walk table (entry :: agenda) after) :
    ∃ middle, model.Walk table [entry] middle ∧ model.Walk middle agenda after := by
  have parts : model.Walk table ([entry] ++ agenda) after := walk
  exact parts.split

/-- The table at the end of a walk extends the table at its start. -/
theorem grows (walk : model.Walk table agenda after) : table.Extends after := by
  induction walk with
  | done table => exact .refl table
  | known slot _ ih => exact (SlotTable.Extends.promote _ _ _).trans ih
  | record fresh _ _ _ _ below onward =>
    exact (((SlotTable.Extends.reserve _ _).trans below).fill fresh _).trans onward
  | union fresh _ _ _ ih => exact ((SlotTable.Extends.reserve _ _).fill fresh _).trans ih
  | keep _ _ _ ih => exact (SlotTable.Extends.reserve _ _).trans ih
  | giveUp _ _ _ ih => exact ih

end Walk

/-! ## Successful resolutions -/

section Successful

variable {table after : SlotTable}
  {reach : ShapeUse → Category → Resolution Unit}

/-- If reaching a shape is a walk, so is making members: a walk through the targets of
their chains. -/
theorem walk_of_members {bound : Nat}
    (below : ∀ {table after use category}, (reach use category).on table = (.ok (), after) →
      model.Walk table [(use, category)] after)
    {required : List Key} {entries : List (String × ShapeUse)} {members : List Member}
    (run : (entries.mapM (model.member reach bound required)).on table = (.ok members, after)) :
    ∃ chains, List.Forall₂ (fun entry chain => model.chain bound entry.2 = .ok chain)
        entries chains ∧
      members = List.zipWith (fun entry chain => chain.member required entry.1)
        entries chains ∧
      model.Walk table ((chains.filterMap Chain.target?).map (·, .other)) after := by
  induction entries generalizing table members with
  | nil =>
    cases run
    exact ⟨[], .nil, rfl, .done _⟩
  | cons entry rest ih =>
    rw [List.mapM_cons, Resolution.on_bind_ok_iff] at run
    obtain ⟨first, middle, head, run⟩ := run
    obtain ⟨others, last, tail, made⟩ := Resolution.on_bind_ok_iff.mp run
    cases made
    obtain ⟨chains, found, rfl, walk⟩ := ih tail
    rw [member_eq, Resolution.on_ofExcept_bind_ok_iff] at head
    obtain ⟨chain, follow, head⟩ := head
    obtain ⟨⟨⟩, _, visit, made⟩ := Resolution.on_bind_ok_iff.mp head
    cases made
    refine ⟨chain :: chains, .cons follow found, rfl, ?_⟩
    -- The leaf of the first member is reached before the other members are made.
    obtain ⟨links, leaf⟩ := chain
    cases leaf with
    | named use => exact (below visit).append walk
    | plain fragment =>
      cases visit
      exact walk

/-- If reaching a shape is a walk, so is making the record of a structure: a walk
through the targets of its outline. -/
theorem walk_of_record
    (below : ∀ {table after use category}, (reach use category).on table = (.ok (), after) →
      model.Walk table [(use, category)] after)
    {use : ShapeUse} {category : Category} {record : Record}
    (run : (model.record reach model.chainBound use category).on table = (.ok record, after)) :
    ∃ targets, model.Outlines use category record targets ∧
      model.Walk table (targets.map (·, .other)) after := by
  rw [Model.record, Resolution.on_ofExcept_bind_ok_iff] at run
  obtain ⟨required, keys, run⟩ := run
  obtain ⟨entries, members, run⟩ := Resolution.on_ofExcept_bind_ok_iff.mp run
  obtain ⟨_, _, run, made⟩ := Resolution.on_bind_ok_iff.mp run
  cases made
  obtain ⟨chains, found, rfl, walk⟩ := walk_of_members below run
  exact ⟨_, ⟨required, entries, chains, keys, members, found, rfl, rfl⟩, walk⟩

/-- Reaching a shape successfully is a walk through this shape. -/
theorem walk_of_reach {depth : Nat} {use : ShapeUse} {category : Category}
    (run : (model.reach model.chainBound depth use category).on table = (.ok (), after)) :
    model.Walk table [(use, category)] after := by
  -- The depth bounds the recursion only: a walk below a structure is one at a smaller depth.
  induction depth generalizing table after use category with
  | zero => cases run
  | succ depth ih =>
    by_cases known : use.name ∈ table.names
    · rw [reach_known known] at run
      cases run
      exact .known known (.done _)
    cases handler : use.handler with
    | record =>
      rw [reach_record known handler, Resolution.on_bind_ok_iff] at run
      obtain ⟨record, middle, made, filled⟩ := run
      cases filled
      obtain ⟨targets, outline, walk⟩ := walk_of_record ih made
      exact .record known handler outline walk (.done _)
    | union =>
      rw [reach_union known handler] at run
      cases made : use.union with
      | error fault =>
        rw [made] at run
        cases run
      | ok union =>
        rw [made] at run
        cases run
        exact .union known handler made (.done _)
    | keep =>
      rw [reach_keep known handler] at run
      cases run
      exact .keep known handler (.done _)
    | giveUp =>
      rw [reach_giveUp known handler] at run
      cases run
      exact .giveUp known handler (.done _)

/-! ## Operations -/

theorem walk_of_resolvePayload {use : Option ShapeUse} {category : Category} {payload : Payload}
    (run : (model.resolvePayload use category).on table = (.ok payload, after)) :
    model.Walk table (use.map (·, category)).toList after := by
  cases use with
  | none =>
    cases run
    exact .done _
  | some use =>
    obtain ⟨⟨⟩, middle, reached, run⟩ := Resolution.on_bind_ok_iff.mp run
    have walk := walk_of_reach reached
    rw [Resolution.on_table_bind] at run
    split at run <;>
    · cases run
      exact walk

/-- An operation is resolved successfully if both of its references are, and what they stand
for is resolved one after the other. -/
theorem operationPayloads_ok_iff {name : Value} {payloads : Payload × Payload} :
    (model.operationPayloads name).on table = (.ok payloads, after) ↔
      ∃ uses middle, model.references name = .ok uses ∧
        (model.resolvePayload uses.1 .request).on table = (.ok payloads.1, middle) ∧
        (model.resolvePayload uses.2 .response).on middle = (.ok payloads.2, after) := by
  constructor
  · intro run
    obtain ⟨operation, found, run⟩ := Resolution.on_ofExcept_bind_ok_iff.mp run
    obtain ⟨input, inputUse, run⟩ := Resolution.on_ofExcept_bind_ok_iff.mp run
    obtain ⟨first, middle, taken, run⟩ := Resolution.on_bind_ok_iff.mp run
    obtain ⟨output, outputUse, run⟩ := Resolution.on_ofExcept_bind_ok_iff.mp run
    obtain ⟨second, last, returned, made⟩ := Resolution.on_bind_ok_iff.mp run
    cases made
    have resolved := references_ok_iff.mpr ⟨operation, found, inputUse, outputUse⟩
    exact ⟨(input, output), middle, resolved, taken, returned⟩
  · rintro ⟨⟨input, output⟩, middle, resolved, taken, returned⟩
    obtain ⟨operation, found, inputUse, outputUse⟩ := references_ok_iff.mp resolved
    refine Resolution.on_ofExcept_bind_ok_iff.mpr ⟨operation, found, ?_⟩
    refine Resolution.on_ofExcept_bind_ok_iff.mpr ⟨input, inputUse, ?_⟩
    refine Resolution.on_bind_ok_iff.mpr ⟨payloads.1, middle, taken, ?_⟩
    refine Resolution.on_ofExcept_bind_ok_iff.mpr ⟨output, outputUse, ?_⟩
    exact Resolution.on_bind_ok_iff.mpr ⟨payloads.2, after, returned, rfl⟩

/-- An operation that is resolved successfully is a walk through what it refers to. -/
theorem walk_of_operationPayloads {name : Value} {payloads : Payload × Payload}
    (run : (model.operationPayloads name).on table = (.ok payloads, after)) :
    ∃ references, model.references name = .ok references ∧
      model.Walk table (payloadsOf references) after := by
  obtain ⟨uses, middle, resolved, taken, returned⟩ := operationPayloads_ok_iff.mp run
  exact ⟨uses, resolved,
    (walk_of_resolvePayload taken).append (walk_of_resolvePayload returned)⟩

theorem walk_of_operations {names : List Value}
    (run : (names.forM fun name => discard (model.operationPayloads name)).on table =
      (.ok (), after)) :
    model.Walk table (names.flatMap model.operationUses) after := by
  induction names generalizing table with
  | nil =>
    cases run
    exact .done _
  | cons name rest ih =>
    obtain ⟨_, middle, head, tail⟩ := Resolution.on_bind_ok_iff.mp run
    obtain ⟨payloads, answered⟩ := Resolution.on_discard_ok_iff.mp head
    obtain ⟨references, found, walk⟩ := walk_of_operationPayloads answered
    rw [List.flatMap_cons, operationUses, found]
    exact walk.append (ih tail)

/-- Collecting all definitions successfully is a walk through what the operations
refer to. -/
theorem walk_of_definitions {definitions : List Definition}
    (run : model.definitions.on table = (.ok definitions, after)) :
    model.Walk table model.payloads after ∧ definitions = after.definitions := by
  obtain ⟨names, found, run⟩ := Resolution.on_ofExcept_bind_ok_iff.mp run
  obtain ⟨⟨⟩, middle, collected, made⟩ := Resolution.on_bind_ok_iff.mp run
  cases made
  refine ⟨?_, rfl⟩
  rw [payloads, found]
  exact walk_of_operations collected

end Successful

end Model

end ElmBindgen
