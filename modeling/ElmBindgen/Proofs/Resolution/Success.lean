import ElmBindgen.Proofs.Graph.Chains
import ElmBindgen.Proofs.Resolution.Order
import Mathlib.Data.Finset.Card

/-!
# Resolutions that succeed

Among names that are closed every shape has a definition that leads to names among them. A
resolution that starts there never leaves them, so it meets nothing that it fails at. It does
not run out of depth either: a structure is entered only if its name has no slot, which it
has from then on, so there is one level for each shape at most.

## Main definitions

* `Model.Closed`: names with definitions that lead to each other
* `Model.Enters`: an agenda that starts among some names
* `Model.unvisited`: the names of shapes that have no slot
* `Model.Reaches`: a target that is reached, whatever has been reached before

## Main results

* `Model.Closed.reach_ok`, `Model.Closed.definitions_ok`: resolutions among closed names
  succeed
* `Model.Closed.names_subset`: walks stay among closed names
* `Model.Literal.closed_of_definitions`: what a literal model has resolved is closed
-/

namespace ElmBindgen

open Elm (Category Definition Member Payload Record)

namespace Model

variable {model : Model} {names : List String} {table after : SlotTable} {use : ShapeUse}
  {category : Category} {record : Record} {targets : List ShapeUse}
  {agenda : List (ShapeUse × Category)}

/-! ## Closed names -/

/-- Names with definitions that lead to each other. -/
structure Closed (model : Model) (names : List String) : Prop where
  record : ∀ use, model.Uses use → use.name ∈ names → use.handler = .record →
    ∃ category record targets, model.Outlines use category record targets ∧
      ∀ target ∈ targets, target.name ∈ names
  union : ∀ use, model.Uses use → use.name ∈ names → use.handler = .union →
    ∃ union, use.union = .ok union

/-- An agenda is among some names, up to shapes that give their slots up anyway. -/
def Enters (model : Model) (names : List String) (agenda : List (ShapeUse × Category)) : Prop :=
  ∀ entry ∈ agenda, model.Uses entry.1 ∧
    (entry.1.handler ≠ .giveUp → entry.1.name ∈ names)

namespace Enters

variable {entry : ShapeUse × Category}

theorem head (enters : model.Enters names ((use, category) :: agenda))
    (handled : use.handler ≠ .giveUp) : model.Uses use ∧ use.name ∈ names := by
  obtain ⟨uses, here⟩ := enters _ List.mem_cons_self
  exact ⟨uses, here handled⟩

theorem tail (enters : model.Enters names (entry :: agenda)) : model.Enters names agenda :=
  fun _ listed => enters _ (List.mem_cons_of_mem _ listed)

end Enters

/-- A use has one outline, up to the category. -/
theorem Outlines.unique {next : Category} {record' : Record} {targets' : List ShapeUse}
    (outline : model.Outlines use category record targets)
    (outline' : model.Outlines use next record' targets') :
    targets' = targets ∧ record' = { record with category := next } := by
  obtain ⟨required, entries, chains, keys, members, found, rfl, rfl⟩ := outline
  obtain ⟨required', entries', chains', keys', members', found', rfl, rfl⟩ := outline'
  cases keys.symm.trans keys'
  cases members.symm.trans members'
  have functional : Relator.RightUnique fun (entry : String × ShapeUse) chain =>
      model.chain model.chainBound entry.2 = .ok chain := by
    intro entry chain chain' follow follow'
    exact chain_unique follow follow'
  rw [functional.forall₂ found found']
  exact ⟨rfl, rfl⟩

/-- Alike uses have the same outlines. -/
theorem Outlines.of_alike {other : ShapeUse}
    (outline : model.Outlines use category record targets) (alike : use.Alike other) :
    model.Outlines other category record targets := by
  obtain ⟨required, entries, chains, keys, members, found, rfl, rfl⟩ := outline
  rw [alike.requiredKeys] at keys
  rw [alike.members] at members
  rw [alike.name]
  exact ⟨required, entries, chains, keys, members, found, rfl, rfl⟩

namespace Closed

/-- The targets of a structure among closed names are among them. -/
theorem enters (closed : model.Closed names) (uses : model.Uses use) (here : use.name ∈ names)
    (handler : use.handler = .record) (outline : model.Outlines use category record targets) :
    model.Enters names (targets.map (·, .other)) := by
  obtain ⟨_, _, _, outline', inside⟩ := closed.record use uses here handler
  obtain ⟨rfl, -⟩ := outline.unique outline'
  intro entry listed
  obtain ⟨target, there, rfl⟩ := List.mem_map.mp listed
  exact ⟨(outline.targets uses there).1, fun _ => inside target there⟩

/-- A walk stays among closed names. -/
theorem names_subset (closed : model.Closed names) (walk : model.Walk table agenda after)
    (enters : model.Enters names agenda) (inside : table.names ⊆ names) :
    after.names ⊆ names := by
  have reserved {table : SlotTable} {name : String} (inside : table.names ⊆ names)
      (here : name ∈ names) : (table.reserve name).names ⊆ names := by
    rw [SlotTable.names_reserve]
    exact List.append_subset.mpr ⟨inside, by simpa using here⟩
  -- A structure inside leads to targets inside, so the walk below it stays inside as well.
  induction walk with
  | done table => exact inside
  | known _ _ ih =>
    refine ih enters.tail ?_
    rwa [SlotTable.names_promote]
  | record fresh handler outline _ _ below onward =>
    obtain ⟨uses, here⟩ := enters.head (by simp [handler])
    have middle := below (closed.enters uses here handler outline) (reserved inside here)
    refine onward enters.tail ?_
    rwa [SlotTable.names_fill]
  | union fresh handler _ _ ih =>
    obtain ⟨-, here⟩ := enters.head (by simp [handler])
    refine ih enters.tail ?_
    rw [SlotTable.names_fill]
    exact reserved inside here
  | keep fresh handler _ ih =>
    obtain ⟨-, here⟩ := enters.head (by simp [handler])
    exact ih enters.tail (reserved inside here)
  | giveUp _ _ _ ih => exact ih enters.tail inside

end Closed

/-! ## Depth -/

/-- The names of shapes that have no slot. -/
def unvisited (model : Model) (table : SlotTable) : Finset String :=
  model.shapeNames.toFinset \ table.names.toFinset

theorem card_unvisited_le (model : Model) (table : SlotTable) :
    (model.unvisited table).card ≤ model.shapeCount := by
  have all : (model.unvisited table).card ≤ model.shapeNames.toFinset.card :=
    Finset.card_le_card Finset.sdiff_subset
  rw [← length_shapeNames]
  exact all.trans (List.toFinset_card_le _)

theorem card_unvisited_mono (model : Model) (grows : table.Extends after) :
    (model.unvisited after).card ≤ (model.unvisited table).card := by
  refine Finset.card_le_card fun name here => ?_
  simp only [unvisited, Finset.mem_sdiff, List.mem_toFinset] at here ⊢
  exact ⟨here.1, fun known => here.2 (grows.mem_names known)⟩

/-- A shape that gets a slot has been visited. -/
theorem card_unvisited_reserve (uses : model.Uses use) (fresh : use.name ∉ table.names) :
    (model.unvisited (table.reserve use.name)).card < (model.unvisited table).card := by
  have before : use.name ∈ model.unvisited table := by
    simp [unvisited, uses.mem_shapeNames, fresh]
  refine Finset.card_lt_card ((Finset.ssubset_iff_of_subset ?_).mpr ⟨use.name, before, ?_⟩)
  · intro name here
    simp only [unvisited, Finset.mem_sdiff, List.mem_toFinset] at here ⊢
    exact ⟨here.1, fun known => here.2 (by simp [known])⟩
  · simp [unvisited]

/-! ## Reaching shapes -/

section Making

variable {reach : ShapeUse → Category → Resolution Unit}

/-- A target is reached on every table that extends some table, and what is left behind
extends it as well. -/
def Reaches (reach : ShapeUse → Category → Resolution Unit) (start : SlotTable)
    (target : ShapeUse) : Prop :=
  ∀ table, start.Extends table →
    ∃ after, (reach target .other).on table = (.ok (), after) ∧ start.Extends after

/-- If the targets of some members are reached, the members are made. -/
theorem members_ok {bound : Nat} {start : SlotTable} {entries : List (String × ShapeUse)}
    {chains : List Chain}
    (found : List.Forall₂ (fun entry chain => model.chain bound entry.2 = .ok chain)
      entries chains)
    (below : ∀ target ∈ chains.filterMap Chain.target?, Reaches reach start target)
    (required : List Key) (grows : start.Extends table) :
    ∃ members after, (entries.mapM (model.member reach bound required)).on table =
      (.ok members, after) := by
  -- Each member leaves a table behind that still extends the one at the start.
  induction found generalizing table with
  | nil => exact ⟨[], table, rfl⟩
  | @cons entry chain entries chains follow _ ih =>
    obtain ⟨middle, visited, grows⟩ : ∃ middle,
        (chain.leaf.visit reach).on table = (.ok (), middle) ∧ start.Extends middle := by
      cases leaf : chain.leaf with
      | plain fragment => exact ⟨table, rfl, grows⟩
      | named own => exact below own (by simp [Chain.target?, leaf]) table grows
    have others : ∀ target ∈ chains.filterMap Chain.target?, Reaches reach start target := by
      intro target listed
      refine below target ?_
      rw [List.filterMap_cons]
      split
      · exact listed
      · exact List.mem_cons_of_mem _ listed
    obtain ⟨members, after, made⟩ := ih others grows
    refine ⟨chain.member required entry.1 :: members, after, ?_⟩
    rw [List.mapM_cons, Resolution.on_bind_ok_iff]
    refine ⟨_, middle, ?_, Resolution.on_bind_ok_iff.mpr ⟨members, after, made, rfl⟩⟩
    rw [member_eq, Resolution.on_ofExcept_bind_ok_iff]
    exact ⟨chain, follow, Resolution.on_bind_ok_iff.mpr ⟨(), middle, visited, rfl⟩⟩

/-- If the targets of its outline are reached, the record of a structure is made. -/
theorem record_ok (outline : model.Outlines use category record targets)
    (below : ∀ target ∈ targets, Reaches reach table target) (next : Category) :
    ∃ record after, (model.record reach model.chainBound use next).on table =
      (.ok record, after) := by
  obtain ⟨required, entries, chains, keys, members, found, -, rfl⟩ := outline
  obtain ⟨made, after, run⟩ := members_ok found below required (.refl table)
  refine ⟨⟨Elm.typeName use.name, next, made⟩, after, ?_⟩
  refine Resolution.on_ofExcept_bind_ok_iff.mpr ⟨required, keys, ?_⟩
  refine Resolution.on_ofExcept_bind_ok_iff.mpr ⟨entries, members, ?_⟩
  exact Resolution.on_bind_ok_iff.mpr ⟨made, after, run, rfl⟩

end Making

namespace Closed

/-- Among closed names every shape is reached, if the depth is larger than the number of shapes
that have no slot. -/
theorem reach_ok (closed : model.Closed names) {depth : Nat}
    (enough : (model.unvisited table).card < depth)
    (enters : model.Enters names ((use, category) :: agenda)) :
    ∃ after, (model.reach model.chainBound depth use category).on table = (.ok (), after) := by
  induction depth generalizing table use category agenda with
  | zero => exact absurd enough (Nat.not_lt_zero _)
  | succ depth ih =>
    by_cases known : use.name ∈ table.names
    · exact ⟨_, reach_known known⟩
    cases handler : use.handler with
    | record =>
      obtain ⟨uses, here⟩ := enters.head (by simp [handler])
      obtain ⟨_, _, targets, outline, -⟩ := closed.record use uses here handler
      have fewer : (model.unvisited (table.reserve use.name)).card < depth := by
        have visited := card_unvisited_reserve uses known
        omega
      -- The slot of the structure pays for the level that its members are reached on.
      have below : ∀ target ∈ targets, Reaches (model.reach model.chainBound depth)
          (table.reserve use.name) target := by
        intro target listed later grows
        have left := (model.card_unvisited_mono grows).trans_lt fewer
        have entered : model.Enters names [(target, .other)] := by
          intro entry alone
          obtain rfl := List.mem_singleton.mp alone
          exact closed.enters uses here handler outline _ (List.mem_map_of_mem listed)
        obtain ⟨after, run⟩ := ih left entered
        have onward := model.reach_extends model.chainBound depth target .other later
        rw [run] at onward
        exact ⟨after, run, grows.trans onward⟩
      obtain ⟨record, middle, made⟩ := record_ok outline below category
      rw [reach_record known handler]
      exact ⟨_, Resolution.on_bind_ok_iff.mpr ⟨record, middle, made, rfl⟩⟩
    | union =>
      obtain ⟨uses, here⟩ := enters.head (by simp [handler])
      obtain ⟨union, made⟩ := closed.union use uses here handler
      rw [reach_union known handler, made]
      exact ⟨_, rfl⟩
    | keep => exact ⟨_, reach_keep known handler⟩
    | giveUp => exact ⟨_, reach_giveUp known handler⟩

/-! ## Operations -/

theorem resolvePayload_ok (closed : model.Closed names) {own : Option ShapeUse}
    (enters : model.Enters names (own.map (·, category)).toList) (table : SlotTable) :
    ∃ payload after, (model.resolvePayload own category).on table = (.ok payload, after) := by
  cases own with
  | none => exact ⟨_, table, rfl⟩
  | some use =>
    have enough := Nat.lt_succ_of_le (model.card_unvisited_le table)
    obtain ⟨after, run⟩ := closed.reach_ok enough enters
    rw [resolvePayload, Resolution.on_bind, resolve, run]
    simp only [Resolution.on_table_bind]
    split <;> exact ⟨_, after, rfl⟩

theorem operationPayloads_ok (closed : model.Closed names) {name : Value}
    {uses : Option ShapeUse × Option ShapeUse} (resolved : model.references name = .ok uses)
    (enters : model.Enters names (payloadsOf uses)) (table : SlotTable) :
    ∃ payloads after, (model.operationPayloads name).on table = (.ok payloads, after) := by
  have input : model.Enters names (uses.1.map (·, .request)).toList :=
    fun entry listed => enters entry (List.mem_append_left _ listed)
  have output : model.Enters names (uses.2.map (·, .response)).toList :=
    fun entry listed => enters entry (List.mem_append_right _ listed)
  obtain ⟨first, middle, taken⟩ := closed.resolvePayload_ok input table
  obtain ⟨second, after, returned⟩ := closed.resolvePayload_ok output middle
  exact ⟨(first, second), after,
    operationPayloads_ok_iff.mpr ⟨uses, middle, resolved, taken, returned⟩⟩

/-- If what operations refer to is among closed names, all definitions are collected. -/
theorem definitions_ok (closed : model.Closed names) {operations : List Value}
    (listed : model.operationNames = .ok operations)
    (resolved : ∀ name ∈ operations, ∃ uses, model.references name = .ok uses)
    (enters : model.Enters names model.payloads) :
    ∃ definitions after, model.definitions.on .empty = (.ok definitions, after) := by
  rw [payloads, listed] at enters
  have collected (table : SlotTable) : ∃ after,
      (operations.forM fun name => discard (model.operationPayloads name)).on table =
        (.ok (), after) := by
    clear listed
    induction operations generalizing table with
    | nil => exact ⟨table, rfl⟩
    | cons name rest ih =>
      obtain ⟨⟨uses, own⟩, others⟩ := List.forall_mem_cons.mp resolved
      have entered : model.Enters names (payloadsOf uses) := by
        intro entry here
        refine enters entry (List.mem_flatMap.mpr ⟨name, List.mem_cons_self, ?_⟩)
        rwa [operationUses, own]
      have onward : model.Enters names (rest.flatMap model.operationUses) := by
        intro entry here
        exact enters entry (List.mem_append_right _ here)
      obtain ⟨payloads, middle, answered⟩ := closed.operationPayloads_ok own entered table
      obtain ⟨after, run⟩ := ih others onward middle
      have first := Resolution.on_discard_ok_iff.mpr ⟨payloads, answered⟩
      exact ⟨after, Resolution.on_bind_ok_iff.mpr ⟨(), middle, first, run⟩⟩
  obtain ⟨after, run⟩ := collected .empty
  refine ⟨after.definitions, after, ?_⟩
  refine Resolution.on_ofExcept_bind_ok_iff.mpr ⟨operations, listed, ?_⟩
  exact Resolution.on_bind_ok_iff.mpr ⟨(), after, run, rfl⟩

end Closed

/-! ## What has succeeded -/

section Successful

variable {definitions : List Definition}

/-- What a literal model has resolved is closed: each name stands for one shape, whichever use
it was resolved for. -/
theorem Literal.closed_of_definitions (literal : model.Literal)
    (run : model.definitions.on .empty = (.ok definitions, table)) :
    model.Closed table.names where
  record := by
    intro use uses here handler
    obtain ⟨-, settled⟩ := settled_of_definitions run
    obtain ⟨own, slot, uses', named, -, settles⟩ := settled use.name here
    have alike := literal.alike_of_name uses' uses named
    obtain ⟨_, _, _, -, outline, inside⟩ := settles.of_record (alike.handler.trans handler)
    exact ⟨_, _, _, outline.of_alike alike, inside⟩
  union := by
    intro use uses here handler
    obtain ⟨-, settled⟩ := settled_of_definitions run
    obtain ⟨own, slot, uses', named, -, settles⟩ := settled use.name here
    have alike := literal.alike_of_name uses' uses named
    obtain ⟨union, -, made⟩ := settles.of_union (alike.handler.trans handler)
    exact ⟨union, alike.union ▸ made⟩

/-- What operations refer to has been resolved if all definitions have been collected. -/
theorem enters_of_definitions (run : model.definitions.on .empty = (.ok definitions, table)) :
    model.Enters table.names model.payloads := by
  obtain ⟨walk, -⟩ := walk_of_definitions run
  intro entry listed
  exact ⟨used_payloads entry listed, walk.agenda_subset listed⟩

theorem references_of_operations {operations : List Value}
    (run : (operations.forM fun name => discard (model.operationPayloads name)).on table =
      (.ok (), after)) : ∀ name ∈ operations, ∃ uses, model.references name = .ok uses := by
  induction operations generalizing table with
  | nil => simp
  | cons own rest ih =>
    obtain ⟨_, middle, first, onward⟩ := Resolution.on_bind_ok_iff.mp run
    obtain ⟨payloads, answered⟩ := Resolution.on_discard_ok_iff.mp first
    obtain ⟨uses, resolved, -⟩ := walk_of_operationPayloads answered
    exact List.forall_mem_cons.mpr ⟨⟨uses, resolved⟩, ih onward⟩

/-- All operations refer to uses if all definitions have been collected. -/
theorem references_of_definitions {operations : List Value}
    (listed : model.operationNames = .ok operations)
    (run : model.definitions.on table = (.ok definitions, after)) :
    ∀ name ∈ operations, ∃ uses, model.references name = .ok uses := by
  obtain ⟨_, listed', onward⟩ := Resolution.on_ofExcept_bind_ok_iff.mp run
  cases listed.symm.trans listed'
  obtain ⟨⟨⟩, last, collected, -⟩ := Resolution.on_bind_ok_iff.mp onward
  exact references_of_operations collected

end Successful

end Model

end ElmBindgen
