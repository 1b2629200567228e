import ElmBindgen.Proofs.Resolution.Run
import Mathlib.Data.List.Forall2

/-!
# How shapes are reached

One equation for each way in which a shape can be reached, and for each thing that is
made on the way. What a record consists of does not depend on the table: it is said by
the chains of its members alone. What depends on the table is only the effect of
reaching the leaves of these chains.

## Main definitions

* `Chain.member`, `Chain.target?`: what a chain contributes to a record, and what is
  reached for it
* `Model.Outlines`: the record of a structure and the uses that its members lead to

## Main results

* `Model.reach_known`, `Model.reach_record`, `Model.reach_union`, `Model.reach_keep`,
  `Model.reach_giveUp`: the ways of reaching a shape
* `Model.record_keeps_of_targets`, `Model.record_keeps`: what reaching keeps, the making of
  a record keeps
-/

namespace ElmBindgen

open Elm (Category Definition Member Record Union)

/-! ## What chains contribute -/

/-- What is reached for a leaf. -/
def Leaf.visit (reach : ShapeUse → Category → Resolution Unit) : Leaf → Resolution Unit
  | named use => reach use .other
  | plain _ => pure ()

namespace Chain

/-- The use that is reached for a chain, if its leaf has a definition. -/
def target? (chain : Chain) : Option ShapeUse :=
  match chain.leaf with
  | .named use => some use
  | .plain _ => none

/-- For a chain nothing is done, or its target is reached. -/
theorem visit_eq (chain : Chain) (reach : ShapeUse → Category → Resolution Unit) :
    chain.leaf.visit reach = pure () ∨
      ∃ own ∈ chain.target?, chain.leaf.visit reach = reach own .other := by
  cases leaf : chain.leaf with
  | plain fragment => exact .inl rfl
  | named own =>
    refine .inr ⟨own, ?_, rfl⟩
    rw [target?, leaf]
    rfl

/-- The member that a chain stands for. -/
def member (required : List Key) (key : String) (chain : Chain) : Member :=
  if Key.text key ∈ required then ⟨key, true, chain.fragment⟩
  else ⟨key, false, chain.fragment.optional⟩

end Chain

namespace Model

variable (model : Model)

/-- The record of a structure, with the uses that its members lead to, in order. -/
def Outlines (use : ShapeUse) (category : Category) (record : Record)
    (targets : List ShapeUse) : Prop :=
  ∃ required entries chains, use.requiredKeys = .ok required ∧ use.members model = .ok entries ∧
    List.Forall₂ (fun entry chain => model.chain model.chainBound entry.2 = .ok chain)
      entries chains ∧
    record = ⟨Elm.typeName use.name, category,
      List.zipWith (fun entry chain => chain.member required entry.1) entries chains⟩ ∧
    targets = chains.filterMap Chain.target?

theorem Outlines.category_eq {model : Model} {use : ShapeUse} {category : Category}
    {record : Record} {targets : List ShapeUse}
    (outline : model.Outlines use category record targets) : record.category = category := by
  obtain ⟨_, _, _, _, _, _, rfl, _⟩ := outline
  rfl

theorem Outlines.type_eq {model : Model} {use : ShapeUse} {category : Category}
    {record : Record} {targets : List ShapeUse}
    (outline : model.Outlines use category record targets) :
    record.type = Elm.typeName use.name := by
  obtain ⟨_, _, _, _, _, _, rfl, _⟩ := outline
  rfl

/-! ## Making records -/

section Making

variable (reach : ShapeUse → Category → Resolution Unit) (bound : Nat)

/-- A member is made by following its chain, then reaching the leaf. -/
theorem member_eq (required : List Key) (entry : String × ShapeUse) :
    model.member reach bound required entry =
      Resolution.ofExcept (model.chain bound entry.2) >>= fun chain =>
        chain.leaf.visit reach >>= fun _ => pure (chain.member required entry.1) := by
  have fragment : model.memberFragment reach bound entry.2 =
      Resolution.ofExcept (model.chain bound entry.2) >>= fun chain =>
        chain.leaf.visit reach >>= fun _ => pure chain.fragment := by
    unfold memberFragment
    congr 1
    funext chain
    cases chain.leaf <;> simp [Leaf.visit]
  -- What is left is a choice between two results that do not depend on the table.
  rw [member, fragment, bind_assoc]
  congr 1
  funext chain
  rw [bind_assoc]
  congr 1
  funext _
  rw [pure_bind, Chain.member]
  split <;> rfl

variable {reach} {relation : SlotTable → SlotTable → Prop} [IsPreorder SlotTable relation]

/-- What reaching the targets of its members keeps, the making of a record keeps. -/
theorem record_keeps_of_targets {use : ShapeUse}
    (below : ∀ entries, use.members model = .ok entries → ∀ entry ∈ entries, ∀ chain,
      model.chain bound entry.2 = .ok chain → ∀ own ∈ chain.target?, ∀ category,
        Resolution.Keeps relation (reach own category))
    (category : Category) :
    Resolution.Keeps relation (model.record reach bound use category) := by
  refine .ofExcept_bind fun required _ => .ofExcept_bind fun entries members => ?_
  refine .bind (.mapM fun entry listed => ?_) fun _ => .pure _
  rw [member_eq]
  refine .ofExcept_bind fun chain follow => ?_
  rcases chain.visit_eq reach with nothing | ⟨own, target, visit⟩
  · rw [nothing]
    exact .bind (.pure ()) fun _ => .pure _
  · rw [visit]
    exact .bind (below entries members entry listed chain follow own target .other) fun _ => .pure _

/-- What reaching keeps, the making of a record keeps. -/
theorem record_keeps
    (below : ∀ use category, Resolution.Keeps relation (reach use category))
    (use : ShapeUse) (category : Category) :
    Resolution.Keeps relation (model.record reach bound use category) :=
  model.record_keeps_of_targets bound (fun _ _ _ _ _ _ own _ => below own) category

end Making

/-! ## Reaching shapes -/

section Reaching

variable {model} {table : SlotTable} {use : ShapeUse} {category : Category} {bound depth : Nat}

/-- A shape with a slot may change its category, and nothing else happens. -/
theorem reach_known (known : use.name ∈ table.names) :
    (model.reach bound (depth + 1) use category).on table =
      (.ok (), table.promote use.name category) := by
  obtain ⟨slot, found⟩ := SlotTable.mem_names_iff.mp known
  rw [reach, Resolution.on_table_bind, found]
  rfl

/-- Reaching a shape without a slot starts by reserving one. -/
theorem reach_fresh (fresh : use.name ∉ table.names) :
    (model.reach bound (depth + 1) use category).on table =
      (match use.handler with
        | .record => do
          let record ← model.record (model.reach bound depth) bound use category
          Resolution.update (·.fill use.name (.record record))
        | .union => do
          let union ← Resolution.ofExcept use.union
          Resolution.update (·.fill use.name (.union union))
        | .keep => pure ()
        | .giveUp => Resolution.update (·.drop use.name)).on (table.reserve use.name) := by
  rw [reach, Resolution.on_table_bind, (table.find?_eq_none_iff _).mpr fresh]
  cases use.handler <;> rfl

/-- A structure is filled in when its members have been resolved. -/
theorem reach_record (fresh : use.name ∉ table.names) (handler : use.handler = .record) :
    (model.reach bound (depth + 1) use category).on table =
      (model.record (model.reach bound depth) bound use category >>= fun record =>
        Resolution.update (·.fill use.name (.record record))).on (table.reserve use.name) := by
  rw [reach_fresh fresh, handler]

/-- An enumeration is filled in at once. -/
theorem reach_union (fresh : use.name ∉ table.names) (handler : use.handler = .union) :
    (model.reach bound (depth + 1) use category).on table =
      match use.union with
      | .ok union => (.ok (), (table.reserve use.name).fill use.name (.union union))
      | .error fault => (.error fault, table.reserve use.name) := by
  rw [reach_fresh fresh, handler, Resolution.on_ofExcept_bind]
  cases use.union <;> rfl

/-- Some shapes only take a slot. -/
theorem reach_keep (fresh : use.name ∉ table.names) (handler : use.handler = .keep) :
    (model.reach bound (depth + 1) use category).on table =
      (.ok (), table.reserve use.name) := by
  rw [reach_fresh fresh, handler]
  rfl

/-- All other shapes leave no trace. -/
theorem reach_giveUp (fresh : use.name ∉ table.names) (handler : use.handler = .giveUp) :
    (model.reach bound (depth + 1) use category).on table = (.ok (), table) := by
  rw [reach_fresh fresh, handler, Resolution.on_update, SlotTable.drop_reserve fresh]

end Reaching

end Model

end ElmBindgen
