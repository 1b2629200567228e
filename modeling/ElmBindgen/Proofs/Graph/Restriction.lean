import ElmBindgen.Proofs.Graph.Chains

/-!
# Models with fewer operations

What a reference stands for, and what a use consists of, is said by the shapes of a model;
the operations only say which references there are. So two models with the same shapes have
the same uses, as far as the one has them, and a literal model stays literal with fewer
operations. Only the bound on chains counts the operations as well, and in a literal model
this bound has no say.

## Main definitions

* `Model.Restricts`: a model with some of the operations of another one

## Main results

* `Model.Restricts.of_entries`: leaving out operations, or putting them in another order
* `Model.Restricts.uses`: what the smaller model uses the larger one uses
* `Model.Restricts.literal`: the smaller model of a literal one is literal
* `Model.Restricts.outlines_iff`: structures have the same outlines in both models
-/

namespace ElmBindgen

open Elm (Category Record)

namespace Model

/-- A model with the metadata and the shapes of another one and with some of its
operations, in any order. -/
structure Restricts (part whole : Model) : Prop where
  metadata : part.metadata = whole.metadata
  shapes : part.shapes = whole.shapes
  operations : ∃ names all, part.operationNames = .ok names ∧ whole.operationNames = .ok all ∧
    ∀ name ∈ names, name ∈ all ∧ part.operation name = whole.operation name

/-! ## What is said by the shapes -/

section Shapes

variable {part whole : Model}

theorem shape_congr (shapes : part.shapes = whole.shapes) : part.shape = whole.shape := by
  funext name
  rw [shape, shape, shapes]

theorem useNamed_congr (shapes : part.shapes = whole.shapes) : part.useNamed = whole.useNamed := by
  funext name traits
  rw [useNamed, useNamed, shape_congr shapes]

theorem use_congr (shapes : part.shapes = whole.shapes) : part.use = whole.use := by
  funext reference
  cases reference with
  | object fields => rw [use, use, useNamed_congr shapes]
  | _ => rfl

theorem members_congr (shapes : part.shapes = whole.shapes) (use : ShapeUse) :
    use.members part = use.members whole := by
  rw [ShapeUse.members, ShapeUse.members, use_congr shapes]

theorem follow_congr (shapes : part.shapes = whole.shapes) (link : Link) (use : ShapeUse) :
    link.follow part use = link.follow whole use := by
  cases link <;>
    simp only [Link.follow, ShapeUse.item, ShapeUse.entryValue, ShapeUse.held, use_congr shapes]

theorem chain_congr (shapes : part.shapes = whole.shapes) (bound : Nat) (use : ShapeUse) :
    part.chain bound use = whole.chain bound use := by
  induction bound generalizing use with
  | zero => rfl
  | succ bound ih => simp only [chain, follow_congr shapes, ih]

theorem payload_congr (shapes : part.shapes = whole.shapes) (operation : Value) (key : String) :
    part.payload operation key = whole.payload operation key := by
  rw [payload, payload, use_congr shapes]

theorem Leads.congr (shapes : part.shapes = whole.shapes) {use leaf : ShapeUse}
    (leads : part.Leads use leaf) : whole.Leads use leaf := by
  induction leads with
  | leaf list map => exact .leaf list map
  | @item use _ _ list found _ ih =>
    have same : use.item part = use.item whole := follow_congr shapes .list use
    exact .item list (same ▸ found) ih
  | @entryValue use _ _ map found _ ih =>
    have same : use.entryValue part = use.entryValue whole := follow_congr shapes .map use
    exact .entryValue map (same ▸ found) ih

theorem Edges.congr (shapes : part.shapes = whole.shapes) {name : String} {targets : List String}
    (edges : part.Edges name targets) : whole.Edges name targets := by
  obtain ⟨use, found, made⟩ := edges
  rw [shapeNamed, useNamed_congr shapes] at found
  refine ⟨use, found, made.imp_left ?_⟩
  rintro ⟨type, entries, leaves, members, leads, rfl⟩
  rw [members_congr shapes] at members
  exact ⟨type, entries, leaves, members, leads.imp fun _ _ => .congr shapes, rfl⟩

theorem edge_congr (shapes : part.shapes = whole.shapes) : part.Edge = whole.Edge := by
  funext name other
  refine propext ⟨?_, ?_⟩
  · rintro ⟨targets, edges, here⟩
    exact ⟨targets, edges.congr shapes, here⟩
  · rintro ⟨targets, edges, here⟩
    exact ⟨targets, edges.congr shapes.symm, here⟩

theorem shapeCount_congr (shapes : part.shapes = whole.shapes) :
    part.shapeCount = whole.shapeCount := by
  rw [shapeCount, shapeCount, shapes]

end Shapes

/-! ## What is said by the operations -/

theorem mem_operationNames {model : Model} {name operation : Value} {names : List Value}
    (found : model.operation name = .ok operation) (listed : model.operationNames = .ok names) :
    name ∈ names := by
  obtain ⟨operations, key, rfl, own, here⟩ := operation_ok found
  rw [operationNames, own] at listed
  cases listed
  exact List.mem_map.mpr ⟨_, here, rfl⟩

namespace Restricts

variable {part whole : Model} {use : ShapeUse}

theorem operation (restricts : part.Restricts whole) {name operation : Value}
    (found : part.operation name = .ok operation) : whole.operation name = .ok operation := by
  obtain ⟨names, _, listed, _, inside⟩ := restricts.operations
  rw [← (inside name (mem_operationNames found listed)).2, found]

theorem mentions (restricts : part.Restricts whole) {reference : Value}
    (mentions : part.Mentions reference) : whole.Mentions reference := by
  induction mentions with
  | payload found side here => exact .payload (restricts.operation found) side here
  | shape found held =>
    rw [shape_congr restricts.shapes] at found
    exact .shape found held
  | trait _ held ih => exact .trait ih held

/-- What the smaller model uses the larger one uses. -/
theorem uses (restricts : part.Restricts whole) (uses : part.Uses use) : whole.Uses use := by
  obtain ⟨reference, mentions, found⟩ := uses
  rw [use_congr restricts.shapes] at found
  exact ⟨reference, restricts.mentions mentions, found⟩

/-- With fewer operations a literal model stays literal. -/
theorem literal (restricts : part.Restricts whole) (literal : whole.Literal) : part.Literal :=
  fun reference mentions => literal reference (restricts.mentions mentions)

/-- An operation of the smaller model refers to the same uses in both models. -/
theorem references (restricts : part.Restricts whole) {names : List Value}
    (listed : part.operationNames = .ok names) {name : Value} (here : name ∈ names) :
    part.references name = whole.references name := by
  obtain ⟨_, _, listed', _, inside⟩ := restricts.operations
  cases listed.symm.trans listed'
  simp only [Model.references, (inside name here).2, payload_congr restricts.shapes]

theorem payloads_subset (restricts : part.Restricts whole) : part.payloads ⊆ whole.payloads := by
  intro payload here
  obtain ⟨names, all, listed, listed', inside⟩ := restricts.operations
  rw [payloads, listed] at here
  obtain ⟨name, own, there⟩ := List.mem_flatMap.mp here
  rw [payloads, listed']
  refine List.mem_flatMap.mpr ⟨name, (inside name own).1, ?_⟩
  rwa [operationUses, ← restricts.references listed own]

theorem roots_subset (restricts : part.Restricts whole) : part.roots ⊆ whole.roots :=
  List.map_subset _ (List.filter_subset _ restricts.payloads_subset)

/-- What can be reached in the smaller model can be reached in the larger one. -/
theorem reachable (restricts : part.Restricts whole) {name : String}
    (reachable : part.Reachable name) : whole.Reachable name := by
  obtain ⟨root, listed, path⟩ := reachable
  rw [edge_congr restricts.shapes] at path
  exact ⟨root, restricts.roots_subset listed, path⟩

/-- A model with some of the entries for operations of another one has some of its
operations. -/
theorem of_entries {few many : List (String × Value)} (metadata : part.metadata = whole.metadata)
    (shapes : part.shapes = whole.shapes) (own : part.operations = some (.object few))
    (other : whole.operations = some (.object many)) (distinct : (few.map Prod.fst).Nodup)
    (distinct' : (many.map Prod.fst).Nodup) (inside : few ⊆ many) : part.Restricts whole where
  metadata := metadata
  shapes := shapes
  operations := by
    refine ⟨_, _, by rw [operationNames, own]; rfl, by rw [operationNames, other]; rfl, ?_⟩
    intro name here
    obtain ⟨⟨key, value⟩, listed, rfl⟩ := List.mem_map.mp here
    refine ⟨List.mem_map.mpr ⟨_, inside listed, rfl⟩, ?_⟩
    have found := (lookup_eq_some_iff_mem distinct).mpr listed
    have found' := (lookup_eq_some_iff_mem distinct').mpr (inside listed)
    simp only [Model.operation, own, other, found, found']

/-! ## Outlines -/

/-- The smaller model has another bound on chains but the same chains. -/
theorem chain_iff (restricts : part.Restricts whole) (literal : whole.Literal)
    (uses : whole.Uses use) {chain : Chain} :
    part.chain part.chainBound use = .ok chain ↔ whole.chain whole.chainBound use = .ok chain := by
  -- Both bounds are larger than the number of shapes, which is the same in both models.
  have few : whole.shapeCount < part.chainBound := by
    rw [← shapeCount_congr restricts.shapes]
    exact shapeCount_lt_chainBound part
  rw [chain_congr restricts.shapes]
  constructor
  · intro found
    exact literal.chain_of_chain uses found (shapeCount_lt_chainBound whole)
  · intro found
    exact literal.chain_of_chain uses found few

/-- Structures have the same outlines in both models. -/
theorem outlines_iff (restricts : part.Restricts whole) (literal : whole.Literal)
    (uses : whole.Uses use) {category : Category} {record : Record} {targets : List ShapeUse} :
    part.Outlines use category record targets ↔ whole.Outlines use category record targets := by
  rw [Outlines, Outlines, members_congr restricts.shapes]
  refine exists_congr fun required => exists_congr fun entries => exists_congr fun chains =>
    and_congr_right fun _ => and_congr_right fun members => and_congr_left fun _ => ?_
  -- The chains of the members are all that is left to compare.
  have used : ∀ entry ∈ entries, whole.Uses entry.2 := fun _ => uses.of_members members
  constructor
  · intro found
    refine ((List.forall₂_and_left _ _).mpr ⟨used, found⟩).imp ?_
    intro entry chain ⟨uses, follow⟩
    exact (restricts.chain_iff literal uses).mp follow
  · intro found
    refine ((List.forall₂_and_left _ _).mpr ⟨used, found⟩).imp ?_
    intro entry chain ⟨uses, follow⟩
    exact (restricts.chain_iff literal uses).mpr follow

end Restricts

end Model

end ElmBindgen
