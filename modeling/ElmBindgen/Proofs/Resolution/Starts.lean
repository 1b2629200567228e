import ElmBindgen.Proofs.Graph.Cycles
import ElmBindgen.Proofs.Resolution.Change
import ElmBindgen.Proofs.Resolution.Success
import ElmBindgen.Proofs.Resolution.Trace

/-!
# Resolution ends and starts each definition once

In a model whose cycles of references all pass through structures no resolution is cut short
by a bound: chains end within the number of shapes, and every structure that is entered takes
the slot of a shape that had none. So the bounds have no say in what is answered. What is
started is told by the slots: a definition is started when its name gets a slot, which it keeps
from then on, even if the definition fails to be made.

## Main definitions

* `Model.defines`: the names of structures and strings
* `Model.opened`: the slots of such names that one table has and another had not
* `Model.Follows`: a traced step that runs like a step on tables

## Main results

* `Model.reach_follows`, `Model.ask_follows`: traced resolution is resolution, at all bounds that
  are large enough
* `Model.askAll_starts`: every sequence of queries is answered, and starts no definition twice
-/

namespace ElmBindgen

open Elm (Category Definition Member Payload Record)
open Fault (Ends)

namespace Model

variable (model : Model)

/-! ## Opened slots -/

/-- The slots for definitions that a later table has and an earlier one has not, in order. -/
def opened (table later : SlotTable) : List String :=
  (later.names.drop table.names.length).filter model.defines

@[simp] theorem opened_self (table : SlotTable) : model.opened table table = [] := by
  simp [opened]

theorem opened_trans {table middle later : SlotTable} (first : table.Extends middle)
    (second : middle.Extends later) :
    model.opened table later = model.opened table middle ++ model.opened middle later := by
  -- Slots are only added at the end, so the new ones come in two parts.
  obtain ⟨new, names⟩ := first.names
  obtain ⟨newer, names'⟩ := second.names
  simp [opened, ← names', ← names]

@[simp] theorem opened_fill (table later : SlotTable) (name : String) (definition : Definition) :
    model.opened table (later.fill name definition) = model.opened table later := by
  simp [opened]

@[simp] theorem opened_promote (table : SlotTable) (name : String) (category : Category) :
    model.opened table (table.promote name category) = [] := by
  simp [opened]

theorem opened_reserve (table : SlotTable) (name : String) :
    model.opened table (table.reserve name) = if model.defines name then [name] else [] := by
  simp [opened, List.filter_cons]

variable {model}

/-- A name stands for a shape with a definition if its uses do. -/
theorem KeepsLinks.defines_eq (kept : model.KeepsLinks) {use : ShapeUse}
    (uses : model.Uses use) : model.defines use.name = use.isRoot := by
  obtain ⟨bare, named, -, type, -, -⟩ := kept.bare uses
  simp only [defines, named, Except.toOption, Option.any_some, ShapeUse.isRoot, type]

/-! ## Following -/

section Following

variable {α β : Type} {base : SlotTable}

/-- On every table that extends some table, a traced step does what a step does: it has the
same outcome, not for want of a larger bound; it leaves the same table behind, which extends the
one before; and the definitions that it starts are those whose slots are new. -/
def Follows (model : Model) (base : SlotTable) (traced : Traced α) (step : Resolution α) :
    Prop :=
  ∀ table, base.Extends table → ∀ started, ∃ outcome after,
    step.on table = (outcome, after) ∧
      traced.on ⟨table, started⟩ = (outcome, ⟨after, started ++ model.opened table after⟩) ∧
        Ends outcome ∧ table.Extends after

namespace Follows

variable {traced : Traced α} {step : Resolution α} {next : α → Resolution β}
  {tracedNext : α → Traced β}

/-- A step that leaves the table alone is followed by itself. -/
theorem lift (same : ∀ table, (step.on table).2 = table) (ends : ∀ table, Ends (step.on table).1) :
    model.Follows base (Traced.lift step) step := by
  intro table _ started
  refine ⟨(step.on table).1, table, Prod.ext rfl (same table), ?_, ends table, .refl table⟩
  simp [same]

theorem pure (a : α) : model.Follows base (Pure.pure a) (Pure.pure a) :=
  lift (fun _ => rfl) fun _ => .ok a

theorem ofExcept {result : Except Fault α} (ends : Ends result) :
    model.Follows base (Traced.lift (Resolution.ofExcept result)) (Resolution.ofExcept result) :=
  lift (fun _ => rfl) fun _ => ends

theorem table : model.Follows base (Traced.lift Resolution.table) Resolution.table :=
  lift (fun _ => rfl) fun _ => .ok _

theorem bind (first : model.Follows base traced step)
    (second : ∀ a, model.Follows base (tracedNext a) (next a)) :
    model.Follows base (traced >>= tracedNext) (step >>= next) := by
  intro table grows started
  obtain ⟨outcome, middle, run, noted, ends, onward⟩ := first table grows started
  rw [Resolution.on_bind, Traced.on_bind, run, noted]
  cases outcome with
  | error fault =>
    exact ⟨.error fault, middle, rfl, rfl, ends.error, onward⟩
  | ok a =>
    -- The second step goes on with the table and with the names that the first one leaves.
    obtain ⟨outcome, after, run, noted, ends, last⟩ :=
      second a middle (grows.trans onward) (started ++ model.opened table middle)
    refine ⟨outcome, after, run, ?_, ends, onward.trans last⟩
    rw [model.opened_trans onward last, ← List.append_assoc]
    exact noted

/-- What follows a pure result only has to be followed if there is one. -/
theorem ofExcept_bind {result : Except Fault α} (ends : Ends result)
    (second : ∀ a, result = .ok a → model.Follows base (tracedNext a) (next a)) :
    model.Follows base (Traced.lift (Resolution.ofExcept result) >>= tracedNext)
      (Resolution.ofExcept result >>= next) := by
  cases result with
  | error fault =>
    intro table _ started
    exact ⟨.error fault, table, rfl, by simp [Traced.on_bind], ends.error, .refl table⟩
  | ok a => exact second a rfl

theorem discard (whole : model.Follows base traced step) :
    model.Follows base (Functor.discard traced) (Functor.discard step) :=
  whole.bind fun _ => pure ()

theorem mapM {xs : List α} {tracedEach : α → Traced β} {each : α → Resolution β}
    (all : ∀ x ∈ xs, model.Follows base (tracedEach x) (each x)) :
    model.Follows base (xs.mapM tracedEach) (xs.mapM each) := by
  induction xs with
  | nil => exact pure []
  | cons x rest ih =>
    have first := all x List.mem_cons_self
    have others := ih fun y listed => all y (List.mem_cons_of_mem x listed)
    rw [List.mapM_cons, List.mapM_cons]
    exact first.bind fun _ => others.bind fun _ => pure _

theorem forM {xs : List α} {tracedEach : α → Traced PUnit} {each : α → Resolution PUnit}
    (all : ∀ x, model.Follows base (tracedEach x) (each x)) :
    model.Follows base (xs.forM tracedEach) (xs.forM each) := by
  induction xs with
  | nil => exact pure PUnit.unit
  | cons x rest ih => exact (all x).bind fun _ => ih

end Follows

end Following

/-! ## Reaching shapes -/

section Reaching

variable {table : SlotTable} {started : List String} {use : ShapeUse} {category : Category}
  {bound depth : Nat}

theorem tracedReach_known (known : use.name ∈ table.names) :
    (model.tracedReach bound (depth + 1) use category).on ⟨table, started⟩ =
      (.ok (), ⟨table.promote use.name category, started⟩) := by
  obtain ⟨slot, found⟩ := SlotTable.mem_names_iff.mp known
  rw [tracedReach, Traced.on_bind, Traced.on_lift, Resolution.on_table]
  simp only [found]
  rfl

theorem tracedReach_fresh (fresh : use.name ∉ table.names) :
    (model.tracedReach bound (depth + 1) use category).on ⟨table, started⟩ =
      (match use.handler with
        | .record => do
          Traced.start use.name
          let record ← model.tracedRecord (model.tracedReach bound depth) bound use category
          Traced.lift (Resolution.update (·.fill use.name (.record record)))
        | .union => do
          Traced.start use.name
          let union ← Traced.lift (Resolution.ofExcept use.union)
          Traced.lift (Resolution.update (·.fill use.name (.union union)))
        | .keep => pure ()
        | .giveUp => Traced.lift (Resolution.update (·.drop use.name))).on
        ⟨table.reserve use.name, started⟩ := by
  rw [tracedReach, Traced.on_bind, Traced.on_lift, Resolution.on_table]
  simp only [(table.find?_eq_none_iff _).mpr fresh]
  cases use.handler <;> rfl

/-- A record is made like its traced twin if the targets of its members are reached so. -/
theorem record_follows (kept : model.KeepsLinks) (grounded : model.Grounded)
    (uses : model.Uses use) (category : Category) (enough : model.shapeCount ≤ bound)
    {base : SlotTable} {traced : ShapeUse → Category → Traced Unit}
    {reach : ShapeUse → Category → Resolution Unit}
    (below : ∀ own, model.Uses own → model.Follows base (traced own .other) (reach own .other)) :
    model.Follows base (model.tracedRecord traced bound use category)
      (model.record reach model.chainBound use category) := by
  refine .ofExcept_bind use.requiredKeys_ends fun required _ => ?_
  refine .ofExcept_bind (use.members_ends model) fun entries members => ?_
  refine .bind (.mapM fun entry listed => ?_) fun _ => .pure _
  have part : model.Uses entry.2 := uses.of_members members listed
  have many := model.shapeCount_lt_chainBound.le
  rw [member_eq, tracedMember, grounded.chain_eq kept part enough many]
  refine .ofExcept_bind (grounded.chain_ends kept part many) fun chain follow => ?_
  refine .bind ?_ fun _ => .pure _
  cases leaf : chain.leaf with
  | plain fragment => exact .pure ()
  | named own =>
    have target : own ∈ chain.target? := by simp [Chain.target?, leaf]
    exact below own (uses.of_target members listed follow target)

/-- Where the bounds are large enough, traced resolution reaches a shape like resolution does. -/
theorem reach_follows (kept : model.KeepsLinks) (grounded : model.Grounded)
    (uses : model.Uses use) (enough : model.shapeCount ≤ bound) {base : SlotTable} {own : Nat}
    (deep : (model.unvisited base).card < depth) (deep' : (model.unvisited base).card < own) :
    model.Follows base (model.tracedReach bound depth use category)
      (model.reach model.chainBound own use category) := by
  induction depth generalizing own use category base with
  | zero => exact absurd deep (Nat.not_lt_zero _)
  | succ depth ih =>
    obtain ⟨own, rfl⟩ : ∃ smaller, own = smaller + 1 := ⟨own - 1, by omega⟩
    intro table grows started
    have onward := model.reach_extends model.chainBound (own + 1) use category table
    by_cases known : use.name ∈ table.names
    · rw [reach_known known] at onward ⊢
      refine ⟨_, _, rfl, ?_, .ok (), onward⟩
      rw [tracedReach_known known, opened_promote, List.append_nil]
    -- The slot that is reserved counts as started if it is one for a definition.
    have reserve := SlotTable.Extends.reserve table use.name
    have opens : model.opened table (table.reserve use.name) =
        if use.isRoot then [use.name] else [] := by
      rw [opened_reserve, kept.defines_eq uses]
    rw [tracedReach_fresh known]
    cases handler : use.handler with
    | record =>
      rw [if_pos (ShapeUse.isRoot_iff.mpr (.inl handler))] at opens
      -- The slot of the structure pays for the level that its members are reached on.
      have fewer := model.card_unvisited_reserve uses known
      have less := model.card_unvisited_mono grows
      have targets (target : ShapeUse) (its : model.Uses target) :
          model.Follows (table.reserve use.name) (model.tracedReach bound depth target .other)
            (model.reach model.chainBound own target .other) :=
        ih its (by omega) (by omega)
      obtain ⟨outcome, middle, run, noted, ends, below⟩ :=
        record_follows kept grounded uses category enough targets _ (.refl _)
          (started ++ [use.name])
      have opened := model.opened_trans reserve below
      rw [opens] at opened
      rw [reach_record known handler, Resolution.on_bind, run] at onward ⊢
      rw [Traced.on_bind, Traced.on_start]
      simp only
      rw [Traced.on_bind, noted, List.append_assoc, ← opened]
      -- With or without a record in the end, what has been started below it stays started.
      cases outcome with
      | error fault => exact ⟨.error fault, middle, rfl, rfl, ends.error, onward⟩
      | ok record => exact ⟨.ok (), _, rfl, by simp, .ok (), onward⟩
    | union =>
      rw [if_pos (ShapeUse.isRoot_iff.mpr (.inr handler))] at opens
      have ends := use.union_ends
      rw [reach_union known handler] at onward ⊢
      cases made : use.union with
      | error fault =>
        rw [made] at ends onward
        exact ⟨.error fault, _, rfl, by simp [Traced.on_bind, opens], ends.error, onward⟩
      | ok union =>
        rw [made] at onward
        exact ⟨.ok (), _, rfl, by simp [Traced.on_bind, opens], .ok (), onward⟩
    | keep =>
      rw [if_neg (by simp [ShapeUse.isRoot_iff, handler])] at opens
      rw [reach_keep known handler] at onward ⊢
      exact ⟨.ok (), _, rfl, by simp [opens], .ok (), onward⟩
    | giveUp =>
      rw [reach_giveUp known handler] at onward ⊢
      exact ⟨.ok (), _, rfl, by simp [SlotTable.drop_reserve known], .ok (), onward⟩

end Reaching

/-! ## Queries -/

section Queries

variable {bound depth : Nat} {base : SlotTable}

/-- What an operation refers to is resolved with a trace like without one. -/
theorem payload_follows (kept : model.KeepsLinks) (grounded : model.Grounded)
    (enough : model.shapeCount ≤ bound) (deep : model.shapeCount < depth)
    {use : Option ShapeUse} (uses : ∀ own ∈ use, model.Uses own) (category : Category) :
    model.Follows base (model.tracedPayload bound depth use category)
      (model.resolvePayload use category) := by
  cases use with
  | none => exact .pure _
  | some own =>
    have few := model.card_unvisited_le base
    refine .bind (reach_follows kept grounded (uses own rfl) enough (by omega) (by omega))
      fun _ => .bind .table fun slots => ?_
    cases slots.definition? own.name <;> exact .pure _

theorem operation_follows (kept : model.KeepsLinks) (grounded : model.Grounded)
    (enough : model.shapeCount ≤ bound) (deep : model.shapeCount < depth) (name : Value) :
    model.Follows base (model.tracedOperation bound depth name)
      (model.operationPayloads name) := by
  refine .ofExcept_bind (model.operation_ends name) fun operation found => ?_
  refine .ofExcept_bind (model.payload_ends operation "input") fun input inputUse => ?_
  have taken : ∀ own ∈ input, model.Uses own := by
    rintro own rfl
    exact uses_of_payload found (.inl rfl) inputUse
  refine .bind (payload_follows kept grounded enough deep taken _) fun _ => ?_
  refine .ofExcept_bind (model.payload_ends operation "output") fun output outputUse => ?_
  have returned : ∀ own ∈ output, model.Uses own := by
    rintro own rfl
    exact uses_of_payload found (.inr rfl) outputUse
  exact .bind (payload_follows kept grounded enough deep returned _) fun _ => .pure _

/-- A query is answered with a trace like without one. -/
theorem ask_follows (kept : model.KeepsLinks) (grounded : model.Grounded)
    (enough : model.shapeCount ≤ bound) (deep : model.shapeCount < depth) (query : Query) :
    model.Follows base (model.tracedAsk bound depth query) (model.ask query) := by
  have operation (name : Value) : model.Follows base (model.tracedOperation bound depth name)
      (model.operationPayloads name) := operation_follows kept grounded enough deep name
  cases query with
  | operation name => exact .bind (operation name) fun _ => .pure _
  | all =>
    refine .bind (.bind (.ofExcept model.operationNames_ends) fun names => ?_) fun _ => .pure _
    refine .bind (.forM fun name => ?_) fun _ => .bind .table fun _ => .pure _
    exact .discard (operation name)

/-- All queries are answered, with a trace like without one. -/
theorem tracedAskAll_eq (kept : model.KeepsLinks) (grounded : model.Grounded)
    (enough : model.shapeCount ≤ bound) (deep : model.shapeCount < depth) (queries : List Query)
    (table : SlotTable) (started : List String) :
    (∀ answer ∈ (model.askAll table queries).1, Ends answer) ∧
    model.tracedAskAll bound depth ⟨table, started⟩ queries =
      ((model.askAll table queries).1, ⟨(model.askAll table queries).2,
        started ++ model.opened table (model.askAll table queries).2⟩) := by
  induction queries generalizing table started with
  | nil => simp [askAll, tracedAskAll]
  | cons query rest ih =>
    obtain ⟨outcome, middle, run, noted, ends, grows⟩ :=
      ask_follows kept grounded enough deep query table (.refl table) started
    obtain ⟨answered, onward⟩ := ih middle (started ++ model.opened table middle)
    have opened := model.opened_trans grows (model.askAll_extends rest middle)
    simp only [askAll, tracedAskAll, run, noted, onward, opened, List.append_assoc, and_true]
    exact List.forall_mem_cons.mpr ⟨ends, answered⟩

/-- Every query is answered, whether the model is recursive or not and whatever has failed
before, and no definition is started twice: all bounds that are not smaller than the number of
shapes give the same answers, none of them cuts a search short, and what has been started are
the names of structures and strings that have slots, each once. -/
theorem askAll_starts (kept : model.KeepsLinks) (grounded : model.Grounded)
    (queries : List Query) :
    (∀ answer ∈ (model.askAll .empty queries).1, Ends answer) ∧
    ((model.askAll .empty queries).2.names.filter model.defines).Nodup ∧
    ∀ bound depth, model.shapeCount ≤ bound → model.shapeCount < depth →
      model.tracedAskAll bound depth ⟨.empty, []⟩ queries =
        ((model.askAll .empty queries).1, ⟨(model.askAll .empty queries).2,
          (model.askAll .empty queries).2.names.filter model.defines⟩) := by
  have serves : model.Serves (model.askAll .empty queries).2 := ⟨queries, rfl⟩
  refine ⟨?_, serves.nodup.filter _, fun bound depth enough deep => ?_⟩
  · exact (tracedAskAll_eq kept grounded (Nat.le_refl _) (Nat.lt_succ_self _) queries .empty []).1
  · exact (tracedAskAll_eq kept grounded enough deep queries .empty []).2

/-- Trees in groves, which have branches that are trees and are planted in rows, and storms that
lead to a shape that is missing. -/
def groves : Model where
  metadata := .object []
  operations := some (.object [
    ("Plant", .object [("input", .named "Tree"), ("output", .named "Grove")]),
    ("Fell", .object [("input", .named "Storm"), ("output", .named "Grove")])])
  shapes := .object [
    ("Tree", .object [("type", .text "structure"), ("members", .object [
      ("Branches", .named "Trees"), ("Kind", .named "Kind"), ("Home", .named "Grove")])]),
    ("Trees", .object [("type", .text "list"), ("member", .named "Tree")]),
    ("Rows", .object [("type", .text "map"), ("value", .named "Trees")]),
    ("Grove", .object [("type", .text "structure"),
      ("members", .object [("Rows", .named "Rows")])]),
    ("Kind", .object [("type", .text "string"), ("enum", .list [.text "oak", .text "elm"])]),
    ("Storm", .object [("type", .text "structure"), ("members", .object [
      ("Hit", .named "Tree"), ("Loss", .named "Loss")])]),
    ("Loss", .object [("type", .text "structure"),
      ("members", .object [("Price", .named "Price")])])]

/-- The groves are asked about four times, twice in vain, and each of their definitions is
started once. -/
theorem askAll_groves :
    ∃ queries answers table, groves.KeepsLinks ∧ groves.Grounded ∧
      answers.map Except.isOk = [false, false, true, true] ∧ (∀ answer ∈ answers, Ends answer) ∧
      ["Storm", "Tree", "Kind", "Grove", "Loss"].Nodup ∧
      ∀ bound depth, 7 ≤ bound → 7 < depth →
        groves.tracedAskAll bound depth ⟨.empty, []⟩ queries =
          (answers, ⟨table, ["Storm", "Tree", "Kind", "Grove", "Loss"]⟩) := by
  have kept : groves.KeepsLinks := .of_listed (by decide)
  have grounded : groves.Grounded :=
    .of_rank (fun name => if name = "Rows" then 2 else if name = "Trees" then 1 else 0) (by decide)
  obtain ⟨ends, distinct, run⟩ := askAll_starts kept grounded
    [.operation (.text "Fell"), .operation (.text "Climb"), .all, .operation (.text "Plant")]
  -- No tree can be climbed, and the first storm fails for the price of the loss that it leads to.
  -- The second time its slot is there, so all definitions can be collected.
  have names : (groves.askAll .empty [.operation (.text "Fell"), .operation (.text "Climb"),
      .all, .operation (.text "Plant")]).2.names.filter groves.defines =
        ["Storm", "Tree", "Kind", "Grove", "Loss"] := rfl
  rw [names] at distinct run
  exact ⟨_, _, _, kept, grounded, rfl, ends, distinct, run⟩

end Queries

end Model

end ElmBindgen
