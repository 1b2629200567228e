import ElmBindgen.Proofs.Resolution.Reach

/-!
# Growth of slot tables

Whatever is asked, and whether the answer is a fault or not, a slot table only grows
at its end. A slot that was reserved before stays reserved, and a filled slot keeps its
definition up to one change of category.

## Main definitions

* `Slot.Becomes`: what may happen to a slot
* `SlotTable.Extends`: what may happen to a table

## Main results

* `Model.reach_extends`, `Model.ask_extends`, `Model.askAll_extends`: every table that
  a step leaves behind extends the table before it
* `SlotTable.Extends.reserved`: a reserved slot stays reserved
-/

namespace ElmBindgen

open Elm (Category Definition Record)

/-! ## Slots -/

/-- A slot later on: as it was, or reached in some category. -/
def Slot.Becomes (slot later : Slot) : Prop :=
  later = slot ∨ ∃ category, later = slot.promote category

namespace Slot

/-- A second change of category has no effect or is the only one with an effect. -/
theorem promote_promote (slot : Slot) (first second : Category) :
    (slot.promote first).promote second = slot.promote first ∨
      (slot.promote first).promote second = slot.promote second := by
  rcases slot with _ | (union | record)
  · exact .inl rfl
  · exact .inl rfl
  -- Only a request changes, and what it changes to is no request.
  · by_cases changes : record.category = .request ∧ first ≠ .request
    · left
      simp [promote, Definition.promote, changes]
    · right
      simp [promote, Definition.promote, changes]

theorem Becomes.refl (slot : Slot) : slot.Becomes slot := .inl rfl

theorem Becomes.trans {slot later last : Slot} (first : slot.Becomes later)
    (second : later.Becomes last) : slot.Becomes last := by
  obtain rfl | ⟨category, rfl⟩ := second
  · exact first
  · obtain rfl | ⟨earlier, rfl⟩ := first
    · exact .inr ⟨category, rfl⟩
    · rcases slot.promote_promote earlier category with same | same
      · exact .inr ⟨earlier, same⟩
      · exact .inr ⟨category, same⟩

theorem Becomes.reserved {later : Slot} (becomes : Slot.reserved.Becomes later) :
    later = .reserved := by
  obtain rfl | ⟨_, rfl⟩ := becomes <;> rfl

end Slot

/-! ## Tables -/

/-- A table later on: new names come last, and every slot is what its earlier self may
have become. -/
structure SlotTable.Extends (table later : SlotTable) : Prop where
  names : table.names <+: later.names
  slot : ∀ name slot, table.find? name = some slot →
    ∃ now, later.find? name = some now ∧ slot.Becomes now

namespace SlotTable

variable {table later : SlotTable} {name : String}

/-- A new name does not repeat one. -/
theorem nodup_names_reserve (distinct : table.names.Nodup) (fresh : name ∉ table.names) :
    (table.reserve name).names.Nodup := by
  rw [names_reserve, List.nodup_append]
  refine ⟨distinct, by simp, ?_⟩
  rintro _ known _ here rfl
  exact fresh (List.mem_singleton.mp here ▸ known)

namespace Extends

theorem refl (table : SlotTable) : table.Extends table :=
  ⟨List.prefix_refl _, fun _ slot found => ⟨slot, found, .refl slot⟩⟩

theorem trans {last : SlotTable} (first : table.Extends later) (second : later.Extends last) :
    table.Extends last where
  names := first.names.trans second.names
  slot := by
    intro name slot found
    obtain ⟨middle, there, becomes⟩ := first.slot name slot found
    obtain ⟨now, here, next⟩ := second.slot name middle there
    exact ⟨now, here, becomes.trans next⟩

instance : IsPreorder SlotTable SlotTable.Extends where
  refl := refl
  trans _ _ _ := trans

/-- A reserved slot stays reserved. -/
theorem reserved (grows : table.Extends later) (found : table.find? name = some .reserved) :
    later.find? name = some .reserved := by
  obtain ⟨now, here, becomes⟩ := grows.slot name _ found
  rw [here, becomes.reserved]

theorem mem_names (grows : table.Extends later) (known : name ∈ table.names) :
    name ∈ later.names := grows.names.subset known

/-- A name without a slot may be given one. -/
theorem reserve (table : SlotTable) (name : String) : table.Extends (table.reserve name) where
  names := by
    rw [names_reserve]
    exact List.prefix_append _ _
  slot := by
    intro other slot found
    refine ⟨slot, ?_, .refl slot⟩
    rw [find?_reserve, found, Option.some_or]

/-- Reaching a name changes its slot alone. -/
theorem promote (table : SlotTable) (name : String) (category : Category) :
    table.Extends (table.promote name category) where
  names := by simp
  slot := by
    intro other slot found
    rw [SlotTable.promote, find?_modify, found]
    by_cases same : other = name
    · rw [if_pos same]
      exact ⟨slot.promote category, rfl, .inr ⟨category, rfl⟩⟩
    · rw [if_neg same]
      exact ⟨slot, rfl, .refl slot⟩

/-- What was not there before may be filled. -/
theorem fill (grows : table.Extends later) (fresh : name ∉ table.names)
    (definition : Definition) : table.Extends (later.fill name definition) where
  names := by
    rw [names_fill]
    exact grows.names
  slot := by
    intro other slot found
    have differs : other ≠ name := fun same => fresh (same ▸ mem_names_of_find? found)
    rw [SlotTable.fill, find?_modify, if_neg differs]
    exact grows.slot other slot found

end Extends

end SlotTable

/-! ## Resolution -/

namespace Model

open Resolution (Keeps)

variable (model : Model)

/-- Reaching a shape extends the table, whatever the outcome. -/
theorem reach_extends (bound depth : Nat) (use : ShapeUse) (category : Category) :
    Keeps SlotTable.Extends (model.reach bound depth use category) := by
  induction depth generalizing use category with
  | zero => exact .throw _
  | succ depth ih =>
    intro table
    by_cases known : use.name ∈ table.names
    · rw [reach_known known]
      exact .promote table use.name category
    -- The slot that is filled or given up at the end is one that `table` does not have.
    have reserved := SlotTable.Extends.reserve table use.name
    cases handler : use.handler with
    | record =>
      have made := model.record_keeps bound (fun use category => ih use category) use category
        (table.reserve use.name)
      rw [reach_record known handler, Resolution.on_bind]
      cases run : (model.record (model.reach bound depth) bound use category).on
          (table.reserve use.name) with
      | mk outcome middle =>
        rw [run] at made
        cases outcome with
        | error fault => exact reserved.trans made
        | ok record => exact (reserved.trans made).fill known _
    | union =>
      rw [reach_union known handler]
      cases use.union with
      | error fault => exact reserved
      | ok union => exact reserved.fill known _
    | keep =>
      rw [reach_keep known handler]
      exact reserved
    | giveUp =>
      rw [reach_giveUp known handler]
      exact .refl table

/-- The making of a record leaves the reserved slot of its shape behind. -/
theorem record_reserved {bound depth : Nat} {use : ShapeUse} {category : Category}
    {table after : SlotTable} (outcome : Except Fault Record)
    (made : (model.record (model.reach bound depth) bound use category).on
      (table.reserve use.name) = (outcome, after)) (fresh : use.name ∉ table.names) :
    after.find? use.name = some .reserved := by
  have below (own : ShapeUse) (category : Category) := model.reach_extends bound depth own category
  have grows := model.record_keeps bound below use category (table.reserve use.name)
  rw [made] at grows
  exact grows.reserved (SlotTable.find?_reserve_self fresh)

theorem resolvePayload_extends (use : Option ShapeUse) (category : Category) :
    Keeps SlotTable.Extends (model.resolvePayload use category) := by
  cases use with
  | none => exact .pure _
  | some use =>
    refine .bind (model.reach_extends _ _ use category) fun _ => .bind .table fun slots => ?_
    split <;> exact .pure _

theorem operationPayloads_extends (name : Value) :
    Keeps SlotTable.Extends (model.operationPayloads name) :=
  .bind (.ofExcept _) fun _ => .bind (.ofExcept _) fun _ =>
    .bind (model.resolvePayload_extends _ _) fun _ => .bind (.ofExcept _) fun _ =>
      .bind (model.resolvePayload_extends _ _) fun _ => .pure _

/-- Answering a query extends the table, whatever the answer. -/
theorem ask_extends (query : Query) : Keeps SlotTable.Extends (model.ask query) := by
  cases query with
  | operation name => exact .bind (model.operationPayloads_extends name) fun _ => .pure _
  | all =>
    refine .bind (.bind (.ofExcept _) fun names => .bind (.forM fun name => ?_) fun _ =>
      .bind .table fun _ => .pure _) fun _ => .pure _
    exact .discard (model.operationPayloads_extends name)

/-- Answering any sequence of queries extends the table. -/
theorem askAll_extends (queries : List Query) (table : SlotTable) :
    table.Extends (model.askAll table queries).2 := by
  induction queries generalizing table with
  | nil => exact .refl table
  | cons query rest ih => exact (model.ask_extends query table).trans (ih _)

end Model

end ElmBindgen
