import ElmBindgen.Proofs.Resolution.Content

/-!
# Changes to slot tables

A run of a resolution, whether it succeeds or not, is a sequence of changes to the table:
a new name gets a reserved slot, a reserved slot is filled with what its shape stands for,
and a name that is reached again may change its category. What each change keeps is kept
by all that can ever be asked.

## Main definitions

* `Model.Makes`: the definition that a use stands for
* `Model.TableChange`, `Model.TableChanges`: one change to a table, and a sequence of them
* `Model.Leaves`: the tables that queries leave behind
* `Model.Sound`: a table whose filled slots hold what their shapes stand for

## Main results

* `Model.reach_changes`, `Model.askAll_changes`: every run is a sequence of changes
* `Model.Serves.nodup`, `Model.Serves.sound`: what holds of all tables that queries
  leave behind
-/

namespace ElmBindgen

open Elm (Category Definition Record Union)

namespace Model

variable {model : Model}

/-! ## Changes -/

/-- A use stands for a definition: a structure for the record of its outline, a string for
the union of its values. -/
inductive Makes (model : Model) (use : ShapeUse) : Definition → Prop
  | record {category record targets} (handler : use.handler = .record)
      (outline : model.Outlines use category record targets) : Makes model use (.record record)
  | union {union} (handler : use.handler = .union) (made : use.union = .ok union) :
      Makes model use (.union union)

/-- One change that a resolution makes to a table. -/
inductive TableChange (model : Model) : SlotTable → SlotTable → Prop
  | promote (table : SlotTable) (name : String) (category : Category) :
      TableChange model table (table.promote name category)
  | reserve {table use} (uses : model.Uses use) (fresh : use.name ∉ table.names) :
      TableChange model table (table.reserve use.name)
  | fill {table use definition} (uses : model.Uses use)
      (reserved : table.find? use.name = some .reserved) (made : model.Makes use definition) :
      TableChange model table (table.fill use.name definition)

/-- Any number of changes. -/
abbrev TableChanges (model : Model) : SlotTable → SlotTable → Prop :=
  Relation.ReflTransGen model.TableChange

instance : IsPreorder SlotTable model.TableChanges where
  refl _ := .refl
  trans _ _ _ := .trans

/-! ## Runs -/

open Resolution (Keeps)

/-- The targets of a use's members are used by the model. -/
theorem Uses.of_target {use own : ShapeUse} (uses : model.Uses use)
    {entries : List (String × ShapeUse)} (members : use.members model = .ok entries)
    {entry : String × ShapeUse} (listed : entry ∈ entries) {bound : Nat} {chain : Chain}
    (follow : model.chain bound entry.2 = .ok chain) (target : own ∈ chain.target?) :
    model.Uses own := by
  obtain ⟨leaf, leads, same⟩ := leads_of_chain follow
  rw [same] at target
  split at target
  · obtain rfl := Option.mem_some_iff.mp target
    exact leads.uses (uses.of_members members listed)
  · cases target

/-- Reaching a shape changes the table step by step, whatever the outcome. -/
theorem reach_changes {use : ShapeUse} (uses : model.Uses use) (depth : Nat)
    (category : Category) :
    Keeps model.TableChanges (model.reach model.chainBound depth use category) := by
  induction depth generalizing use category with
  | zero => exact .throw _
  | succ depth ih =>
    intro table
    by_cases known : use.name ∈ table.names
    · rw [reach_known known]
      exact .single (.promote table use.name category)
    have reserve := TableChange.reserve uses known
    cases handler : use.handler with
    | record =>
      have below := model.record_keeps_of_targets model.chainBound
        (fun _ members _ listed _ follow _ target category =>
          ih (uses.of_target members listed follow target) category) category
        (table.reserve use.name)
      rw [reach_record known handler, Resolution.on_bind]
      cases run : (model.record (model.reach model.chainBound depth) model.chainBound use
          category).on (table.reserve use.name) with
      | mk outcome middle =>
        rw [run] at below
        cases outcome with
        | error fault => exact .head reserve below
        | ok record =>
          -- The slot is still reserved when the members have been resolved.
          have waits := model.record_reserved _ run known
          obtain ⟨targets, outline, -⟩ := walk_of_record walk_of_reach run
          exact .tail (.head reserve below) (.fill uses waits (.record handler outline))
    | union =>
      rw [reach_union known handler]
      cases made : use.union with
      | error fault => exact .single reserve
      | ok union =>
        have waits := SlotTable.find?_reserve_self known
        exact .tail (.single reserve) (.fill uses waits (.union handler made))
    | keep =>
      rw [reach_keep known handler]
      exact .single reserve
    | giveUp =>
      rw [reach_giveUp known handler]

theorem resolvePayload_changes {use : Option ShapeUse} (uses : ∀ own ∈ use, model.Uses own)
    (category : Category) : Keeps model.TableChanges (model.resolvePayload use category) := by
  cases use with
  | none => exact .pure _
  | some own =>
    refine .bind (reach_changes (uses own rfl) _ category) fun _ => .bind .table fun slots => ?_
    split <;> exact .pure _

theorem operationPayloads_changes (name : Value) :
    Keeps model.TableChanges (model.operationPayloads name) := by
  refine .ofExcept_bind fun operation found => .ofExcept_bind fun input inputUse => ?_
  have taken : ∀ own ∈ input, model.Uses own := by
    rintro own rfl
    exact uses_of_payload found (.inl rfl) inputUse
  refine .bind (resolvePayload_changes taken _) fun _ => .ofExcept_bind fun output outputUse => ?_
  have returned : ∀ own ∈ output, model.Uses own := by
    rintro own rfl
    exact uses_of_payload found (.inr rfl) outputUse
  exact .bind (resolvePayload_changes returned _) fun _ => .pure _

/-- Answering a query changes the table step by step, whatever the answer. -/
theorem ask_changes (query : Query) : Keeps model.TableChanges (model.ask query) := by
  cases query with
  | operation name => exact .bind (operationPayloads_changes name) fun _ => .pure _
  | all =>
    refine .bind (.bind (.ofExcept _) fun names => .bind (.forM fun name => ?_) fun _ =>
      .bind .table fun _ => .pure _) fun _ => .pure _
    exact .discard (operationPayloads_changes name)

theorem askAll_changes (queries : List Query) (table : SlotTable) :
    model.TableChanges table (model.askAll table queries).2 := by
  induction queries generalizing table with
  | nil => exact .refl
  | cons query rest ih => exact .trans (ask_changes query table) (ih _)

/-! ## What changes keep -/

/-- Every filled slot holds what some use under its name stands for. -/
def Sound (model : Model) (table : SlotTable) : Prop :=
  ∀ name definition, table.find? name = some (.filled definition) →
    ∃ use, model.Uses use ∧ use.name = name ∧ model.Makes use definition

/-- A use stands for its definition in any category. -/
theorem Makes.promote {use : ShapeUse} {definition : Definition}
    (makes : model.Makes use definition) (category : Category) :
    model.Makes use (definition.promote category) := by
  cases makes with
  | record handler outline =>
    rw [Definition.promote]
    split
    · exact .record handler (outline.recategorize category)
    · exact .record handler outline
  | union handler made => exact .union handler made

variable {table later : SlotTable}

theorem TableChange.nodup (change : model.TableChange table later) (distinct : table.names.Nodup) :
    later.names.Nodup := by
  cases change with
  | promote name category => rwa [SlotTable.names_promote]
  | reserve uses fresh => exact SlotTable.nodup_names_reserve distinct fresh
  | fill => rwa [SlotTable.names_fill]

theorem TableChange.sound (change : model.TableChange table later) (sound : model.Sound table) :
    model.Sound later := by
  intro name definition found
  cases change with
  | promote key category =>
    rw [SlotTable.promote, SlotTable.find?_modify] at found
    split at found
    · obtain ⟨slot, here, changed⟩ := Option.map_eq_some_iff.mp found
      cases slot with
      | reserved => cases changed
      | filled before =>
        obtain ⟨use, uses, named, makes⟩ := sound name before here
        cases changed
        exact ⟨use, uses, named, makes.promote category⟩
    · exact sound name definition found
  | reserve uses fresh =>
    rw [SlotTable.find?_reserve, Option.or_eq_some_iff] at found
    rcases found with here | ⟨-, new⟩
    · exact sound name definition here
    · split at new <;> cases new
  | @fill use filled uses reserved made =>
    rw [SlotTable.fill, SlotTable.find?_modify] at found
    split at found
    · next same =>
      obtain ⟨_, _, changed⟩ := Option.map_eq_some_iff.mp found
      cases changed
      exact ⟨use, uses, same.symm, made⟩
    · exact sound name definition found

/-- A property that every change keeps is kept by any number of changes. -/
theorem TableChanges.keep {holds : SlotTable → Prop} (changes : model.TableChanges table later)
    (step : ∀ {before after}, model.TableChange before after → holds before → holds after)
    (start : holds table) : holds later := by
  induction changes with
  | refl => exact start
  | tail _ change before => exact step change before

/-! ## Tables between queries -/

/-- Queries that are asked of one table leave another one behind. -/
def Leaves (model : Model) (table later : SlotTable) : Prop :=
  ∃ queries, (model.askAll table queries).2 = later

theorem Leaves.changes (leaves : model.Leaves table later) : model.TableChanges table later := by
  obtain ⟨queries, rfl⟩ := leaves
  exact askAll_changes queries table

theorem Leaves.extends (leaves : model.Leaves table later) : table.Extends later := by
  obtain ⟨queries, rfl⟩ := leaves
  exact model.askAll_extends queries table

theorem askAll_append (first second : List Query) (table : SlotTable) :
    (model.askAll table (first ++ second)).2 =
      (model.askAll (model.askAll table first).2 second).2 := by
  induction first generalizing table with
  | nil => rfl
  | cons query rest ih => exact ih _

theorem Serves.leaves (serves : model.Serves table) : model.Leaves .empty table := serves

/-- What is left behind by more queries is left behind by all of them. -/
theorem Serves.onward (serves : model.Serves table) (leaves : model.Leaves table later) :
    model.Serves later := by
  obtain ⟨first, rfl⟩ := serves
  obtain ⟨second, rfl⟩ := leaves
  exact ⟨first ++ second, askAll_append first second .empty⟩

/-- Whatever has been asked, no name has two slots. -/
theorem Serves.nodup (serves : model.Serves table) : table.names.Nodup :=
  serves.leaves.changes.keep TableChange.nodup List.nodup_nil

/-- Whatever has been asked, filled slots hold what their shapes stand for. -/
theorem Serves.sound (serves : model.Serves table) : model.Sound table :=
  serves.leaves.changes.keep TableChange.sound fun _ _ found => nomatch found

end Model

end ElmBindgen
