import ElmBindgen.Generate
import ElmBindgen.Proofs.Graph.Listing
import ElmBindgen.Proofs.Resolution.Content

/-!
# The order of definitions

A slot is reserved before the members of its shape are resolved, and it keeps its place
when it is filled. So the names of a table are in depth-first pre-order of the graph of
shapes, apart from the names that cannot have a definition.

## Main definitions

* `Model.defines`: the names of structures and strings

## Main results

* `Model.Walk.depthFirst`: a walk is a depth-first search
* `Model.generate_ok_iff`: what it takes to generate a module
* `Model.definitions_depthFirst`: the definitions of all operations are in depth-first
  pre-order, without repetition and without gaps
-/

namespace ElmBindgen

open Elm (Category Definition Record Union)

namespace ShapeUse

theorem Alike.isRoot {first second : ShapeUse} (alike : first.Alike second) :
    first.isRoot = second.isRoot := by
  rw [ShapeUse.isRoot, ShapeUse.isRoot, alike.type]

/-- A union is named for its shape. -/
theorem type_of_union {use : ShapeUse} {union : Union} (made : use.union = .ok union) :
    union.type = Elm.typeName use.name := by
  obtain ⟨values, -, made⟩ := Fault.bind_ok_iff.mp made
  obtain ⟨elements, -, made⟩ := Fault.bind_ok_iff.mp made
  obtain ⟨variants, -, made⟩ := Fault.bind_ok_iff.mp made
  cases made
  rfl

end ShapeUse

namespace Model

variable {model : Model}

/-- Whether the shape of a name has a definition when it is reached. -/
def defines (model : Model) (name : String) : Bool :=
  (model.shapeNamed name).toOption.any ShapeUse.isRoot

/-- In a literal model, whether a use has a definition is told by its name. -/
theorem Literal.defines_eq (literal : model.Literal) {use : ShapeUse} (uses : model.Uses use) :
    model.defines use.name = use.isRoot := by
  obtain ⟨bare, found, alike⟩ := literal.alike uses
  rw [defines, found, alike.isRoot]
  rfl

/-- A new slot counts if its shape has a definition. -/
theorem Literal.filter_reserve (literal : model.Literal) {use : ShapeUse}
    (uses : model.Uses use) (table : SlotTable) :
    (table.reserve use.name).names.filter model.defines =
      table.names.filter model.defines ++ if use.isRoot then [use.name] else [] := by
  rw [SlotTable.names_reserve, List.filter_append, List.filter_singleton,
    literal.defines_eq uses]
  cases use.isRoot <;> rfl

/-! ## Walks as searches -/

namespace Walk

variable {table after : SlotTable} {agenda : List (ShapeUse × Category)}

/-- The names with definitions that a walk adds are what a depth-first search finds. -/
theorem depthFirst (walk : model.Walk table agenda after) (literal : model.Literal)
    (used : model.Used agenda) :
    ∃ found, after.names.filter model.defines = table.names.filter model.defines ++ found ∧
      DepthFirst model.Edges (table.names.filter model.defines) (rootNames agenda) found := by
  -- What the search has seen are the names of the table that count, reserved or filled.
  induction walk with
  | done table => exact ⟨[], (List.append_nil _).symm, .done _⟩
  | @known table after use category rest slot _ ih =>
    obtain ⟨found, names, search⟩ := ih used.tail
    rw [SlotTable.names_promote] at names search
    refine ⟨found, names, ?_⟩
    rw [rootNames_cons]
    split
    · next root =>
      refine .skip (List.mem_filter.mpr ⟨slot, ?_⟩) search
      rw [literal.defines_eq used.head, root]
    · exact search
  | @record table middle after use category record targets rest fresh handler outline _ _
      inner outer =>
    have uses : model.Uses use := used.head
    have root : use.isRoot := ShapeUse.isRoot_iff.mpr (.inl handler)
    obtain ⟨below, names, search⟩ := inner (outline.used uses)
    obtain ⟨found, final, onward⟩ := outer used.tail
    rw [literal.filter_reserve uses, if_pos root] at names search
    -- Every target of a structure has a definition, so all of them are searched.
    rw [rootNames_map fun target listed => (outline.targets uses listed).2] at search
    rw [SlotTable.names_fill, names] at final onward
    rw [List.append_assoc, List.singleton_append] at onward
    refine ⟨use.name :: below ++ found, by simpa using final, ?_⟩
    rw [rootNames_cons, if_pos root]
    refine .enter ?_ (literal.edges_of_outlines uses handler outline) search onward
    exact fun old => fresh (List.mem_of_mem_filter old)
  | @union table after use category union rest fresh handler _ _ ih =>
    have uses : model.Uses use := used.head
    have root : use.isRoot := ShapeUse.isRoot_iff.mpr (.inr handler)
    obtain ⟨found, names, search⟩ := ih used.tail
    rw [SlotTable.names_fill, literal.filter_reserve uses,
      if_pos root] at names search
    refine ⟨use.name :: found, by simpa using names, ?_⟩
    rw [rootNames_cons, if_pos root]
    refine .enter ?_ (literal.edges_nil uses (by simp [handler])) (.done _) search
    exact fun old => fresh (List.mem_of_mem_filter old)
  | @keep table after use category rest _ handler _ ih =>
    have uses : model.Uses use := used.head
    have root : ¬use.isRoot := by simp [ShapeUse.isRoot_iff, handler]
    obtain ⟨found, names, search⟩ := ih used.tail
    rw [literal.filter_reserve uses, if_neg root, List.append_nil] at names search
    exact ⟨found, names, by rwa [rootNames_cons, if_neg root]⟩
  | @giveUp table after use category rest _ handler _ ih =>
    have root : ¬use.isRoot := by simp [ShapeUse.isRoot_iff, handler]
    obtain ⟨found, names, search⟩ := ih used.tail
    exact ⟨found, names, by rwa [rootNames_cons, if_neg root]⟩

end Walk

/-! ## What is filled -/

/-- What a settled slot holds is named for its shape. -/
theorem Settled.type {table : SlotTable} {name : String} {definition : Definition}
    (settled : model.Settled table name)
    (found : table.find? name = some (.filled definition)) :
    definition.type = Elm.typeName name := by
  obtain ⟨use, slot, _, rfl, here, settles⟩ := settled
  cases here.symm.trans found
  cases settles with
  | record handler outline inside => exact outline.type_eq
  | union handler made => exact ShapeUse.type_of_union made

/-- In a literal model the settled slots with a definition are those of structures and
strings. -/
theorem Settled.isSome_definition? {table : SlotTable} {name : String}
    (settled : model.Settled table name) (literal : model.Literal) :
    (table.definition? name).isSome = model.defines name := by
  obtain ⟨use, slot, uses, rfl, here, settles⟩ := settled
  rw [literal.defines_eq uses, SlotTable.definition?, here, Option.bind_some]
  symm
  cases settles with
  | record handler => exact ShapeUse.isRoot_iff.mpr (.inl handler)
  | union handler => exact ShapeUse.isRoot_iff.mpr (.inr handler)
  | keep handler =>
    change use.isRoot = false
    rw [← Bool.not_eq_true, ShapeUse.isRoot_iff]
    simp [handler]

section Definitions

variable {table : SlotTable} {definitions : List Definition}

/-- After all operations every slot is settled and no name has two. -/
theorem settled_of_definitions
    (run : model.definitions.on .empty = (.ok definitions, table)) :
    table.names.Nodup ∧ ∀ name ∈ table.names, model.Settled table name := by
  obtain ⟨walk, -⟩ := walk_of_definitions run
  exact ⟨walk.nodup List.nodup_nil, fun name => walk.settled_of_empty used_payloads⟩

/-- A module is generated if the service can be described and all definitions are collected. -/
theorem generate_ok_iff {region : Value} {generated : GeneratedModule} :
    model.generate region = .ok generated ↔ ∃ service definitions table,
      model.service region = .ok service ∧
        model.definitions.on .empty = (.ok definitions, table) ∧
          generated = ⟨service, definitions⟩ := by
  constructor
  · intro run
    obtain ⟨service, described, run⟩ := Fault.bind_ok_iff.mp run
    obtain ⟨definitions, collected, made⟩ := Fault.bind_ok_iff.mp run
    cases made
    exact ⟨service, definitions, _, described, Prod.ext collected rfl, rfl⟩
  · rintro ⟨service, definitions, table, described, run, rfl⟩
    have collected : (model.definitions.on .empty).1 = .ok definitions := by rw [run]
    exact Fault.bind_ok_iff.mpr
      ⟨service, described, Fault.bind_ok_iff.mpr ⟨definitions, collected, rfl⟩⟩

/-- The definitions of all operations are in depth-first pre-order of the graph of shapes:
each shape that can be reached has one definition, and no other shape has any. -/
theorem definitions_depthFirst (literal : model.Literal)
    (run : model.definitions.on .empty = (.ok definitions, table)) :
    (∀ order, DepthFirst model.Edges [] model.roots order ↔ order = table.filled.map Prod.fst) ∧
      (table.filled.map Prod.fst).Nodup ∧
      (∀ name, name ∈ table.filled.map Prod.fst ↔ model.Reachable name) ∧
      definitions = table.filled.map Prod.snd ∧
      definitions.map Definition.type = (table.filled.map Prod.fst).map Elm.typeName := by
  obtain ⟨walk, rfl⟩ := walk_of_definitions run
  obtain ⟨distinct, settled⟩ := settled_of_definitions run
  obtain ⟨found, names, search⟩ := walk.depthFirst literal used_payloads
  -- All slots are settled, so the filled ones are those whose names count.
  have filled : table.filled.map Prod.fst = found := by
    rw [SlotTable.map_fst_filled distinct, List.filter_congr fun name known =>
      (settled name known).isSome_definition? literal]
    exact names
  have types : table.definitions.map Definition.type =
      (table.filled.map Prod.fst).map Elm.typeName := by
    rw [SlotTable.definitions, List.map_map, List.map_map]
    refine List.map_congr_left fun ⟨name, definition⟩ listed => ?_
    have held := (SlotTable.mem_filled_iff distinct).mp listed
    exact (settled name (SlotTable.mem_names_of_find? held)).type held
  have order : DepthFirst model.Edges [] model.roots found := search
  rw [filled] at types ⊢
  refine ⟨fun other => ⟨fun search' => search'.unique edges_rightUnique order, ?_⟩, order.nodup,
    fun name => order.mem_iff edges_rightUnique, rfl, types⟩
  rintro rfl
  exact order

/-- Folders that hold folders, reached as an input, as a member and through a list. -/
def folders : Model where
  metadata := .object []
  operations := some (.object [
    ("Put", .object [("input", .named "Folder"), ("output", .named "Receipt")]),
    ("Count", .object [("input", .named "Receipt"), ("output", .named "Total")])])
  shapes := .object [
    ("Folder", .object [("type", .text "structure"),
      ("members", .object [("Kind", .named "Kind"), ("Entries", .named "Folders")])]),
    ("Folders", .object [("type", .text "list"), ("member", .named "Folder")]),
    ("Kind", .object [("type", .text "string"), ("enum", .list [.text "flat", .text "deep"])]),
    ("Receipt", .object [("type", .text "structure"), ("required", .list [.text "Root"]),
      ("members", .object [("Note", .named "Note"), ("Root", .named "Folder")])]),
    ("Note", .object [("type", .text "string")]),
    ("Total", .object [("type", .text "long")])]

theorem definitions_folders :
    folders.Literal ∧
      (folders.definitions.on .empty).1 = .ok (folders.definitions.on .empty).2.definitions ∧
      DepthFirst folders.Edges [] folders.roots ["Folder", "Kind", "Receipt"] ∧
      ∀ name, name ∈ ["Folder", "Kind", "Receipt"] ↔ folders.Reachable name := by
  have literal : folders.Literal := .of_listed (by decide)
  have run : folders.definitions.on .empty =
      (.ok (folders.definitions.on .empty).2.definitions, (folders.definitions.on .empty).2) := rfl
  obtain ⟨order, -, reachable, -⟩ := definitions_depthFirst literal run
  exact ⟨literal, rfl, (order _).mpr rfl, reachable⟩

end Definitions

end Model

end ElmBindgen
