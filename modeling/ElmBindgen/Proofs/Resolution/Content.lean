import ElmBindgen.Proofs.Graph.Shapes

/-!
# What walks leave in slots

Every slot that a walk adds belongs to a use of the model and holds what this use stands
for: a structure's slot holds the record of its outline, and the targets of the outline
have slots as well. Only shapes that keep their slot in reserve leave a reserved slot
behind.

## Main definitions

* `Model.Settles`: what the slot of a use may hold at the end of a walk

## Main results

* `Model.Walk.settled`: every slot that a walk adds is settled
* `Model.Walk.agenda_subset`: a walk leaves slots for all of its agenda
* `SlotTable.mem_filled_iff`, `SlotTable.map_fst_filled`: the filled slots of a table
  with distinct names
-/

namespace ElmBindgen

open Elm (Category Definition Record)

namespace SlotTable

variable {table : SlotTable}

/-- With distinct names, the slot of a name is the one that is found. -/
theorem find?_eq_some_iff (distinct : table.names.Nodup) {name : String} {slot : Slot} :
    table.find? name = some slot ↔ (name, slot) ∈ table.slots :=
  lookup_eq_some_iff_mem distinct

/-- With distinct names, what is filled is what has a definition. -/
theorem mem_filled_iff (distinct : table.names.Nodup) {name : String} {definition : Definition} :
    (name, definition) ∈ table.filled ↔ table.find? name = some (.filled definition) := by
  rw [find?_eq_some_iff distinct, filled, List.mem_filterMap]
  constructor
  · rintro ⟨⟨first, slot⟩, here, held⟩
    cases slot with
    | reserved => cases held
    | filled _ =>
      cases held
      exact here
  · exact fun here => ⟨_, here, rfl⟩

/-- With distinct names, the filled names are those with a definition, in their order. -/
theorem map_fst_filled (distinct : table.names.Nodup) :
    table.filled.map Prod.fst =
      table.names.filter fun name => (table.definition? name).isSome := by
  have held (entry : String × Slot) (here : entry ∈ table.slots) :
      entry.2.definition?.isSome = (table.definition? entry.1).isSome := by
    rw [definition?, (find?_eq_some_iff distinct).mpr here, Option.bind_some]
  have filtered : table.filled.map Prod.fst =
      (table.slots.filter fun entry => entry.2.definition?.isSome).map Prod.fst := by
    rw [filled]
    induction table.slots with
    | nil => rfl
    | cons entry rest ih =>
      rw [List.filterMap_cons, List.filter_cons]
      cases entry.2.definition? with
      | none => exact ih
      | some definition => exact congrArg (entry.1 :: ·) ih
  rw [filtered, names, List.filter_map, List.filter_congr held]
  rfl

end SlotTable

namespace Model

variable {model : Model}

/-- What the slot of a use holds at the end of a walk, where some names have slots. -/
inductive Settles (model : Model) (names : List String) (use : ShapeUse) : Slot → Prop
  | record {category record targets} (handler : use.handler = .record)
      (outline : model.Outlines use category record targets)
      (inside : ∀ target ∈ targets, target.name ∈ names) :
      Settles model names use (.filled (.record record))
  | union {union} (handler : use.handler = .union) (made : use.union = .ok union) :
      Settles model names use (.filled (.union union))
  | keep (handler : use.handler = .keep) : Settles model names use .reserved

/-- An outline stays one in another category. -/
theorem Outlines.recategorize {use : ShapeUse} {category : Category} {record : Record}
    {targets : List ShapeUse} (outline : model.Outlines use category record targets)
    (next : Category) :
    model.Outlines use next { record with category := next } targets := by
  obtain ⟨required, entries, chains, keys, members, found, rfl, rfl⟩ := outline
  exact ⟨required, entries, chains, keys, members, found, rfl, rfl⟩

namespace Settles

variable {names later : List String} {use : ShapeUse} {slot now : Slot}

theorem mono (settles : model.Settles names use slot) (more : ∀ name ∈ names, name ∈ later) :
    model.Settles later use slot := by
  cases settles with
  | record handler outline inside =>
    exact .record handler outline fun target listed => more _ (inside target listed)
  | union handler made => exact .union handler made
  | keep handler => exact .keep handler

/-- The slot of a structure holds the record of its outline. -/
theorem of_record (settles : model.Settles names use slot) (handler : use.handler = .record) :
    ∃ category record targets, slot = .filled (.record record) ∧
      model.Outlines use category record targets ∧ ∀ target ∈ targets, target.name ∈ names := by
  cases settles with
  | record _ outline inside => exact ⟨_, _, _, rfl, outline, inside⟩
  | union other => simp [handler] at other
  | keep other => simp [handler] at other

/-- The slot of an enumeration holds its union. -/
theorem of_union (settles : model.Settles names use slot) (handler : use.handler = .union) :
    ∃ union, slot = .filled (.union union) ∧ use.union = .ok union := by
  cases settles with
  | record other => simp [handler] at other
  | union _ made => exact ⟨_, rfl, made⟩
  | keep other => simp [handler] at other

/-- A settled slot may be reached in other categories. -/
theorem becomes (settles : model.Settles names use slot) (becomes : slot.Becomes now) :
    model.Settles names use now := by
  obtain rfl | ⟨category, rfl⟩ := becomes
  · exact settles
  · cases settles with
    | @record own record targets handler outline inside =>
      rw [Slot.promote, Definition.promote]
      split
      · exact .record handler (outline.recategorize category) inside
      · exact .record handler outline inside
    | union handler made => exact .union handler made
    | keep handler => exact .keep handler

end Settles

/-- The slot of a name holds what some use of the model under this name stands for. -/
def Settled (model : Model) (table : SlotTable) (name : String) : Prop :=
  ∃ use slot, model.Uses use ∧ use.name = name ∧ table.find? name = some slot ∧
    model.Settles table.names use slot

namespace Settled

variable {table later : SlotTable} {name : String}

theorem grows (settled : model.Settled table name) (grows : table.Extends later) :
    model.Settled later name := by
  obtain ⟨use, slot, uses, named, found, settles⟩ := settled
  obtain ⟨now, here, becomes⟩ := grows.slot name slot found
  exact ⟨use, now, uses, named, here,
    (settles.mono fun _ known => grows.mem_names known).becomes becomes⟩

/-- A record in a settled slot comes from the outline of a structure. -/
theorem of_record {record : Record} (settled : model.Settled table name)
    (found : table.find? name = some (.filled (.record record))) :
    ∃ use category targets, model.Uses use ∧ use.name = name ∧ use.handler = .record ∧
      model.Outlines use category record targets ∧
      ∀ target ∈ targets, target.name ∈ table.names := by
  obtain ⟨use, slot, uses, named, here, settles⟩ := settled
  cases here.symm.trans found
  cases settles with
  | record handler outline inside => exact ⟨use, _, _, uses, named, handler, outline, inside⟩

/-- Shapes that give their slots up have no settled ones. -/
theorem exists_use (settled : model.Settled table name) :
    ∃ use, model.Uses use ∧ use.name = name ∧ use.handler ≠ .giveUp := by
  obtain ⟨use, slot, uses, named, -, settles⟩ := settled
  refine ⟨use, uses, named, ?_⟩
  cases settles with
  | record handler => simp [handler]
  | union handler => simp [handler]
  | keep handler => simp [handler]

/-- Filling the slot of a name settles it and does not touch the others. -/
theorem fill {use : ShapeUse} {definition : Definition} (uses : model.Uses use)
    (known : use.name ∈ table.names)
    (settles : model.Settles table.names use (.filled definition))
    (before : name = use.name ∨ model.Settled table name) :
    model.Settled (table.fill use.name definition) name := by
  obtain ⟨slot, there⟩ := SlotTable.mem_names_iff.mp known
  -- Settling looks at names alone, and filling keeps them.
  by_cases same : name = use.name
  · refine ⟨use, .filled definition, uses, same.symm, ?_, ?_⟩
    · rw [SlotTable.fill, SlotTable.find?_modify, if_pos same, same, there]
      rfl
    · rwa [SlotTable.names_fill]
  · obtain ⟨owner, held, uses, named, found, settles⟩ := before.resolve_left same
    refine ⟨owner, held, uses, named, ?_, ?_⟩
    · rwa [SlotTable.fill, SlotTable.find?_modify, if_neg same]
    · rwa [SlotTable.names_fill]

end Settled

namespace Walk

variable {table after : SlotTable} {agenda : List (ShapeUse × Category)}

theorem nodup (walk : model.Walk table agenda after) (distinct : table.names.Nodup) :
    after.names.Nodup := by
  induction walk with
  | done table => exact distinct
  | known _ _ ih => exact ih (by rwa [SlotTable.names_promote])
  | record fresh _ _ _ _ below onward =>
    exact onward (by
      rw [SlotTable.names_fill]
      exact below (SlotTable.nodup_names_reserve distinct fresh))
  | union fresh _ _ _ ih =>
    exact ih (by
      rw [SlotTable.names_fill]
      exact SlotTable.nodup_names_reserve distinct fresh)
  | keep fresh _ _ ih => exact ih (SlotTable.nodup_names_reserve distinct fresh)
  | giveUp _ _ _ ih => exact ih distinct

/-- A walk leaves slots for all of its agenda that can have any. -/
theorem agenda_subset (walk : model.Walk table agenda after) {entry : ShapeUse × Category}
    (listed : entry ∈ agenda) (handled : entry.1.handler ≠ .giveUp) :
    entry.1.name ∈ after.names := by
  induction walk with
  | done table => cases listed
  | known slot onward ih =>
    rcases List.mem_cons.mp listed with rfl | listed
    · refine onward.grows.mem_names ?_
      rwa [SlotTable.names_promote]
    · exact ih listed
  | record _ _ _ below onward _ ih =>
    rcases List.mem_cons.mp listed with rfl | listed
    · refine onward.grows.mem_names ?_
      rw [SlotTable.names_fill]
      exact below.grows.mem_names (by simp)
    · exact ih listed
  | union _ _ _ onward ih =>
    rcases List.mem_cons.mp listed with rfl | listed
    · refine onward.grows.mem_names ?_
      rw [SlotTable.names_fill]
      simp
    · exact ih listed
  | keep _ _ onward ih =>
    rcases List.mem_cons.mp listed with rfl | listed
    · exact onward.grows.mem_names (by simp)
    · exact ih listed
  | giveUp _ handler _ ih =>
    rcases List.mem_cons.mp listed with rfl | listed
    · exact absurd handler handled
    · exact ih listed

/-- If all slots but some are settled before a walk, all but these are settled after
it. -/
theorem settled (walk : model.Walk table agenda after)
    (used : model.Used agenda) {pending : String → Prop}
    (before : ∀ name ∈ table.names, pending name ∨ model.Settled table name) :
    ∀ name ∈ after.names, pending name ∨ model.Settled after name := by
  -- While the members of a structure are walked through, its name is a pending one.
  induction walk generalizing pending with
  | done table => exact before
  | @known table after use category rest slot _ ih =>
    refine ih used.tail ?_
    intro name known
    rw [SlotTable.names_promote] at known
    exact (before name known).imp_right fun settled => settled.grows (.promote _ _ _)
  | @record table middle after use category record targets rest fresh handler outline below onward
      inner outer =>
    -- Targets have a definition, so none of them gives its slot up.
    have inside : ∀ target ∈ targets, target.name ∈ middle.names := by
      intro target listed
      refine below.agenda_subset (List.mem_map_of_mem listed) fun giveUp => ?_
      have root := (outline.targets used.head listed).2
      simp only [ShapeUse.isRoot_iff, giveUp, reduceCtorEq, or_self] at root
    have known : use.name ∈ middle.names := below.grows.mem_names (by simp)
    have pended : ∀ name ∈ middle.names,
        (pending name ∨ name = use.name) ∨ model.Settled middle name := by
      refine inner (outline.used used.head) ?_
      intro name known
      rw [SlotTable.names_reserve, List.mem_append, List.mem_singleton] at known
      rcases known with known | same
      · exact (before name known).imp .inl fun settled => settled.grows (.reserve _ _)
      · exact .inl (.inr same)
    refine outer used.tail ?_
    intro name here
    rw [SlotTable.names_fill] at here
    exact (or_assoc.mp (pended name here)).imp_right
      (.fill used.head known (.record handler outline inside))
  | @union table after use category union rest fresh handler made onward ih =>
    refine ih used.tail ?_
    intro name here
    rw [SlotTable.names_fill, SlotTable.names_reserve, List.mem_append,
      List.mem_singleton] at here
    have reserved : pending name ∨ name = use.name ∨
        model.Settled (table.reserve use.name) name := by
      rcases here with known | same
      · exact (before name known).imp_right fun settled => .inr (settled.grows (.reserve _ _))
      · exact .inr (.inl same)
    exact reserved.imp_right
      (.fill used.head (by simp) (.union handler made))
  | @keep table after use category rest fresh handler onward ih =>
    refine ih used.tail ?_
    intro name here
    rw [SlotTable.names_reserve, List.mem_append, List.mem_singleton] at here
    rcases here with known | rfl
    · exact (before name known).imp_right fun settled => settled.grows (.reserve _ _)
    · exact .inr ⟨use, .reserved, used.head, rfl, SlotTable.find?_reserve_self fresh,
        .keep handler⟩
  | giveUp _ _ _ ih =>
    exact ih used.tail before

/-- After a walk from the start every slot is settled. -/
theorem settled_of_empty (walk : model.Walk .empty agenda after) (used : model.Used agenda)
    {name : String} (known : name ∈ after.names) : model.Settled after name := by
  have start : ∀ name ∈ SlotTable.empty.names, False ∨ model.Settled .empty name :=
    fun _ known => nomatch known
  exact (walk.settled used start name known).resolve_left id

end Walk

end Model

end ElmBindgen
