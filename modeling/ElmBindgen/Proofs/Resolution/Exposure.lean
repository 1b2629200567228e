import ElmBindgen.Proofs.Resolution.Category
import ElmBindgen.Proofs.Resolution.Independence

/-!
# Exported names and the order of operations

The order of the operations decides in which category a shape is reached first. If no input can
be reached from its own members, no way of reaching it is overlooked, so a record is a request at
the end only if it is nothing but an input. This does not depend on the order, and so the same
names are exported in every order.

## Main definitions

* `Model.InputsAcyclic`: no input can be reached from its own members
* `Model.Permutes`: a model with the operations of another one in another order

## Main results

* `Model.InputsAcyclic.isRequest_iff`: requests are the shapes that are nothing but inputs
* `Model.generate_exposing`: the exported names do not depend on the order of operations
-/

namespace ElmBindgen

open Elm (Category Definition Record)

/-! ## What is exported -/

namespace GeneratedModule

/-- The exported names are those of the definitions, as far as they are not empty. -/
theorem mem_exposing_iff {generated : GeneratedModule} {name : String} :
    name ∈ generated.exposing ↔
      name ≠ "" ∧ ∃ definition ∈ generated.definitions, definition.render.exposeAs = some name := by
  rw [exposing, present, List.mem_filter, rendered, List.map_map, List.filterMap_map,
    List.mem_filterMap, decide_eq_true_eq, and_comm]
  rfl

end GeneratedModule

namespace Model

variable {model part whole : Model} {table own : SlotTable} {definitions few : List Definition}
  {name : String}

/-! ## Inputs without cycles -/

/-- No input of an operation can be reached from its own members. -/
def InputsAcyclic (model : Model) : Prop :=
  ∀ use, (use, Category.request) ∈ model.payloads → ¬Relation.TransGen model.Edge use.name use.name

/-- Without cycles a record is a request at the end exactly if it is nothing but an input. -/
theorem InputsAcyclic.isRequest_iff (acyclic : model.InputsAcyclic) (literal : model.Literal)
    (run : model.definitions.on .empty = (.ok definitions, table)) {record : Record}
    (found : table.find? name = some (.filled (.record record))) :
    record.category = .request ↔ model.OnlyInput name := by
  have request : record.category = .request ↔ table.IsRequest name := by
    rw [SlotTable.IsRequest, found]
    simp
  rw [request, isRequest_iff_firstInput literal run found]
  constructor
  · rintro ⟨⟨before, use, rest, whole, rfl, -⟩, never, below⟩
    have input : (use, Category.request) ∈ model.payloads := by simp [whole]
    -- A structure that leads to the input would be below it and close a cycle.
    refine ⟨⟨use, input, rfl⟩, never, fun shape reachable edge => acyclic use input ?_⟩
    exact .tail' (below shape reachable edge) edge
  · intro only
    exact ⟨only.firstInput, only.2.1, fun shape reachable edge =>
      absurd edge (only.2.2 shape reachable)⟩

/-! ## Operations in another order -/

/-- A model with the operations of another one in another order. -/
structure Permutes (part whole : Model) : Prop where
  restricts : part.Restricts whole
  back : whole.Restricts part

namespace Permutes

theorem symm (permutes : part.Permutes whole) : whole.Permutes part :=
  ⟨permutes.back, permutes.restricts⟩

/-- The entries for the operations may be put in another order. -/
theorem of_perm {few many : List (String × Value)} (metadata : part.metadata = whole.metadata)
    (shapes : part.shapes = whole.shapes) (own : part.operations = some (.object few))
    (other : whole.operations = some (.object many)) (perm : few.Perm many)
    (distinct : (few.map Prod.fst).Nodup) : part.Permutes whole := by
  have distinct' : (many.map Prod.fst).Nodup := (perm.map Prod.fst).nodup_iff.mp distinct
  exact ⟨.of_entries metadata shapes own other distinct distinct' perm.subset,
    .of_entries metadata.symm shapes.symm other own distinct' distinct perm.symm.subset⟩

theorem literal (permutes : part.Permutes whole) (literal : whole.Literal) : part.Literal :=
  permutes.restricts.literal literal

theorem inputsAcyclic (permutes : part.Permutes whole) (acyclic : whole.InputsAcyclic) :
    part.InputsAcyclic := by
  intro use input
  rw [edge_congr permutes.restricts.shapes]
  exact acyclic use (permutes.restricts.payloads_subset input)

/-- What is nothing but an input stays so in another order. -/
theorem onlyInput (permutes : part.Permutes whole) (only : part.OnlyInput name) :
    whole.OnlyInput name := by
  obtain ⟨⟨use, input, named⟩, never, free⟩ := only
  refine ⟨⟨use, permutes.restricts.payloads_subset input, named⟩, ?_, ?_⟩
  · exact fun other output => never other (permutes.back.payloads_subset output)
  · intro shape reachable
    rw [← edge_congr permutes.restricts.shapes]
    exact free shape (permutes.back.reachable reachable)

/-- What is exported in one order is exported in the other. -/
theorem exposed (permutes : part.Permutes whole) (literal : whole.Literal)
    (acyclic : whole.InputsAcyclic)
    (run : whole.definitions.on .empty = (.ok definitions, table))
    (run' : part.definitions.on .empty = (.ok few, own)) {definition : Definition}
    (listed : definition ∈ few) :
    ∃ other ∈ definitions, other.render.exposeAs = definition.render.exposeAs := by
  obtain ⟨_, _, again, inside⟩ := permutes.restricts.definitions_ok literal run
  cases again.symm.trans run'
  obtain ⟨distinct, settled⟩ := settled_of_definitions run
  obtain ⟨distinct', settled'⟩ := settled_of_definitions run'
  obtain ⟨-, rfl⟩ := walk_of_definitions run
  obtain ⟨-, rfl⟩ := walk_of_definitions run'
  obtain ⟨⟨name, _⟩, filled, rfl⟩ := List.mem_map.mp listed
  have found := (SlotTable.mem_filled_iff distinct').mp filled
  have known := SlotTable.mem_names_of_find? found
  obtain ⟨other, found', alike⟩ :=
    permutes.restricts.definition_eq literal (settled' name known) found
      (settled name (inside known))
  have filled' := (SlotTable.mem_filled_iff distinct).mpr found'
  refine ⟨other, List.mem_map.mpr ⟨_, filled', rfl⟩, ?_⟩
  rcases alike with rfl | ⟨record, category, rfl, rfl⟩
  · rfl
  · -- Both records are requests if the shape is nothing but an input, and otherwise none is.
    have requests : record.category = .request ↔ category = .request := by
      rw [(permutes.inputsAcyclic acyclic).isRequest_iff (permutes.literal literal) run' found]
      have own := acyclic.isRequest_iff literal run found'
      exact ⟨fun only => own.mpr (permutes.onlyInput only),
        fun request => permutes.symm.onlyInput (own.mp request)⟩
    simp only [Definition.render, Record.render, requests]

/-- If a module is generated in one order, one is generated in the other, and what it exports is
exported by the first. -/
theorem exposing_subset (permutes : part.Permutes whole) (literal : whole.Literal)
    (acyclic : whole.InputsAcyclic) {region : Value} {generated : GeneratedModule}
    (run : whole.generate region = .ok generated) :
    ∃ own, part.generate region = .ok own ∧ own.exposing ⊆ generated.exposing := by
  obtain ⟨turned, run', -⟩ := permutes.restricts.generate_ok literal run
  refine ⟨turned, run', fun name exported => ?_⟩
  obtain ⟨_, definitions, table, -, collected, rfl⟩ := generate_ok_iff.mp run
  obtain ⟨_, few, own, -, collected', rfl⟩ := generate_ok_iff.mp run'
  rw [GeneratedModule.mem_exposing_iff] at exported ⊢
  obtain ⟨nonempty, definition, listed, exposed⟩ := exported
  obtain ⟨other, listed', same⟩ := permutes.exposed literal acyclic collected collected' listed
  exact ⟨nonempty, other, listed', same.trans exposed⟩

end Permutes

/-- If no input of a literal model can be reached from its own members, a module can be generated
for the same operations in another order as well, and it exports the same names. -/
theorem generate_exposing (literal : whole.Literal) (acyclic : whole.InputsAcyclic)
    (permutes : part.Permutes whole) {region : Value} {generated : GeneratedModule}
    (run : whole.generate region = .ok generated) :
    ∃ own, part.generate region = .ok own ∧
      ∀ name, name ∈ own.exposing ↔ name ∈ generated.exposing := by
  obtain ⟨own, run', inside⟩ := permutes.exposing_subset literal acyclic run
  obtain ⟨_, again, inside'⟩ := permutes.symm.exposing_subset (permutes.literal literal)
    (permutes.inputsAcyclic acyclic) run'
  cases run.symm.trans again
  exact ⟨own, run', fun name => ⟨fun here => inside here, fun there => inside' there⟩⟩

/-- The operation that takes a car. -/
def rentCar : String × Value := ("Rent", .object [("input", .named "Car")])

/-- The operation that takes a query and returns a fleet of cars. -/
def findFleet : String × Value :=
  ("Find", .object [("input", .named "Query"), ("output", .named "Fleet")])

/-- Cars for rent, with some operations. -/
def rental (operations : List (String × Value)) : Model where
  metadata := .object [
    ("endpointPrefix", .text "rental"), ("apiVersion", .text "2020-01-01"),
    ("protocol", .text "json"), ("signatureVersion", .text "v4")]
  operations := some (.object operations)
  shapes := .object [
    ("Car", .object [("type", .text "structure")]),
    ("Place", .object [("type", .text "structure")]),
    ("Query", .object [("type", .text "structure"),
      ("members", .object [("Near", .named "Place")])]),
    ("Fleet", .object [("type", .text "structure"),
      ("members", .object [("Cars", .named "Cars")])]),
    ("Cars", .object [("type", .text "list"), ("member", .named "Car")])]

theorem inputsAcyclic_rental : (rental [findFleet, rentCar]).InputsAcyclic := by
  have leaf {use : ShapeUse} (type : use.type = .text "structure") :
      (rental [findFleet, rentCar]).Leads use use := .leaf (by simp [type]) (by simp [type])
  have car : (rental [findFleet, rentCar]).Edges "Car" [] :=
    ⟨_, rfl, .inl ⟨rfl, [], [], rfl, .nil, rfl⟩⟩
  have place : (rental [findFleet, rentCar]).Edges "Place" [] :=
    ⟨_, rfl, .inl ⟨rfl, [], [], rfl, .nil, rfl⟩⟩
  have query : (rental [findFleet, rentCar]).Edges "Query" ["Place"] :=
    ⟨_, rfl, .inl ⟨rfl, _, [_], rfl, .cons (leaf rfl) .nil, rfl⟩⟩
  have names : ∀ payload ∈ (rental [findFleet, rentCar]).payloads, payload.2 = .request →
      payload.1.name = "Query" ∨ payload.1.name = "Car" := by decide
  intro use input cycle
  rcases names _ input rfl with named | named
  · rw [named, Relation.TransGen.head'_iff] at cycle
    obtain ⟨next, ⟨_, edges, here⟩, path⟩ := cycle
    obtain rfl := edges_rightUnique query edges
    obtain rfl := List.mem_singleton.mp here
    rcases path.cases_head with same | ⟨_, ⟨_, edges, there⟩, -⟩
    · exact absurd same (by decide)
    · obtain rfl := edges_rightUnique place edges
      cases there
  · rw [named, Relation.TransGen.head'_iff] at cycle
    obtain ⟨next, ⟨_, edges, here⟩, -⟩ := cycle
    obtain rfl := edges_rightUnique car edges
    cases here

/-- A car is exported whether it is taken first or found first, and the query in neither order. -/
theorem exposing_rental :
    ∃ own generated, (rental [rentCar, findFleet]).generate .null = .ok own ∧
      (rental [findFleet, rentCar]).generate .null = .ok generated ∧
      own.exposing = ["Car", "Place", "Fleet"] ∧ generated.exposing = ["Place", "Fleet", "Car"] ∧
      ∀ name, name ∈ own.exposing ↔ name ∈ generated.exposing := by
  have literal : (rental [findFleet, rentCar]).Literal := .of_listed (by decide)
  have permutes : (rental [rentCar, findFleet]).Permutes (rental [findFleet, rentCar]) :=
    .of_perm rfl rfl rfl rfl (.swap _ _ _) (by decide)
  obtain ⟨generated, run, exposing⟩ : ∃ generated,
      (rental [findFleet, rentCar]).generate .null = .ok generated ∧
      generated.exposing = ["Place", "Fleet", "Car"] := ⟨_, rfl, rfl⟩
  obtain ⟨own, run', same⟩ := generate_exposing literal inputsAcyclic_rental permutes run
  obtain ⟨_, again, exposing'⟩ : ∃ own, (rental [rentCar, findFleet]).generate .null = .ok own ∧
      own.exposing = ["Car", "Place", "Fleet"] := ⟨_, rfl, rfl⟩
  cases run'.symm.trans again
  exact ⟨own, generated, run', run, exposing', exposing, same⟩

end Model

end ElmBindgen
