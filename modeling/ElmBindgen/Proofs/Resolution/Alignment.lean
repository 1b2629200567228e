import ElmBindgen.Draft.Definition
import ElmBindgen.Proofs.Elm.Opening
import ElmBindgen.Proofs.Graph.Chains
import ElmBindgen.Proofs.Resolution.Collisions

/-!
# What modules are rendered to

Rendering may refuse a draft, but never one that a resolution has come up with. So a module is
generated as soon as its service can be described and all definitions are collected, and none of
the definitions is missing from its lists.

## Main definitions

* `Model.generateDrafts`: generating a module with a renderer that may refuse what it is given

## Main results

* `Model.generateDrafts_eq`: the renderer refuses nothing
* `Model.generate_aligned`: when a module is generated and how its lists line up
-/

namespace ElmBindgen

open Elm (Definition Rendered)

namespace Model

variable {model : Model} {region : Value}

/-- Generates the module of a service with a renderer that may refuse what it is given. -/
def generateDrafts (model : Model) (region : Value) : Except Fault (Service × List Rendered) := do
  let service ← model.service region
  let definitions ← (model.definitions.on .empty).1
  let rendered ← definitions.mapM fun definition => (Draft.ofDefinition definition).render
  return (service, rendered)

/-- The renderer refuses nothing, so both ways of generating a module come to the same. -/
theorem generateDrafts_eq (model : Model) (region : Value) :
    model.generateDrafts region =
      (fun generated => (generated.service, generated.rendered)) <$> model.generate region := by
  have accepted (definitions : List Definition) :
      definitions.mapM (fun definition => (Draft.ofDefinition definition).render) =
        .ok (definitions.map Definition.render) := by
    simp only [Draft.render_ofDefinition]
    exact List.mapM_pure
  -- Up to the rendering both ways are the same, with the same faults.
  rw [generateDrafts, generate]
  cases model.service region with
  | error fault => rfl
  | ok service =>
    cases collected : (model.definitions.on .empty).1 with
    | error fault => rfl
    | ok definitions =>
      simp only [bind, Except.bind, accepted]
      rfl

/-- A module fails to be generated where its service or its definitions do. -/
theorem generate_error_iff {fault : Fault} :
    model.generate region = .error fault ↔ model.service region = .error fault ∨
      (∃ service, model.service region = .ok service) ∧
        (model.definitions.on .empty).1 = .error fault := by
  rw [generate]
  cases model.service region with
  | error own => simp [bind, Except.bind]
  | ok service =>
    cases (model.definitions.on .empty).1 <;> simp [bind, Except.bind, pure, Except.pure]

/-- If no shape has the empty name, no definition of a module has a type without a name. -/
theorem type_ne_empty_of_generate (named : "" ∉ model.shapeNames) {generated : GeneratedModule}
    (run : model.generate region = .ok generated) :
    ∀ definition ∈ generated.definitions, definition.type ≠ "" := by
  obtain ⟨-, types, used⟩ := types_of_generate run
  intro definition listed
  have here : definition.type ∈ generated.types := List.mem_map_of_mem listed
  rw [types] at here
  obtain ⟨name, there, same⟩ := List.mem_map.mp here
  obtain ⟨use, uses, rfl⟩ := used name there
  rw [← same]
  refine Elm.typeName_ne_empty ?_
  rintro empty
  exact named (empty ▸ uses.mem_shapeNames)

/-- When a module is generated, and how its lists line up. It comes to the same as with a renderer
that may refuse what it is given, so it fails only where the service cannot be described or the
definitions cannot be collected. Otherwise it has the definitions that are collected, in their
order. If no shape has the empty name, there is one type and one decoder for each of them, which
the texts introduce, and exported are all unions, with their constructors, and all records that
are no requests. -/
theorem generate_aligned (named : "" ∉ model.shapeNames) (region : Value) :
    model.generateDrafts region =
      (fun generated => (generated.service, generated.rendered)) <$> model.generate region ∧
    (∀ fault, model.generate region = .error fault ↔ model.service region = .error fault ∨
      (∃ service, model.service region = .ok service) ∧
        (model.definitions.on .empty).1 = .error fault) ∧
    ∀ generated, model.generate region = .ok generated →
      model.service region = .ok generated.service ∧
      (model.definitions.on .empty).1 = .ok generated.definitions ∧
      generated.typeDefs = generated.definitions.map Definition.typeSource ∧
      generated.decoderDefs = generated.definitions.map Definition.decoderSource ∧
      (∀ definition ∈ generated.definitions,
        Elm.Opens definition.typeHeading definition.typeSource ∧
          Elm.Opens definition.decoderHeading definition.decoderSource) ∧
      generated.exposing = generated.definitions.filterMap fun
        | .union union => some (union.type ++ "(..)")
        | .record record => if record.category = .request then none else some record.type := by
  refine ⟨model.generateDrafts_eq region, fun fault => generate_error_iff, fun generated run => ?_⟩
  obtain ⟨service, definitions, table, described, collected, made⟩ := generate_ok_iff.mp run
  have exposing := generated.exposing_eq (type_ne_empty_of_generate named run)
  refine ⟨?_, ?_, generated.typeDefs_eq, generated.decoderDefs_eq,
    fun definition _ => ⟨definition.opens_typeSource, definition.opens_decoderSource⟩, ?_⟩
  · rw [described, made]
  · rw [collected, made]
  · rw [exposing]
    refine List.filterMap_congr fun definition _ => ?_
    cases definition <;> rfl

/-- Widgets of two kinds that are listed up to a limit. -/
def widgets : Model where
  metadata := .object [
    ("endpointPrefix", .text "widgets"), ("apiVersion", .text "2020-01-01"),
    ("protocol", .text "json"), ("signatureVersion", .text "v4")]
  operations := some (.object [
    ("List", .object [("input", .named "Query"), ("output", .named "page")])])
  shapes := .object [
    ("Query", .object [("type", .text "structure"),
      ("members", .object [("Limit", .named "Count")])]),
    ("Count", .object [("type", .text "integer")]),
    ("page", .object [("type", .text "structure"),
      ("members", .object [("Kind", .named "Kind")])]),
    ("Kind", .object [("type", .text "string"), ("enum", .list [.text "small", .text "large"])])]

/-- The module for the widgets has three types and three decoders, and does not export the query. -/
theorem generate_widgets :
    "" ∉ widgets.shapeNames ∧ ∃ generated, widgets.generate (.text "eu-west-1") = .ok generated ∧
      widgets.generateDrafts (.text "eu-west-1") = .ok (generated.service, generated.rendered) ∧
      generated.definitions.map Definition.type = ["Query", "Page", "Kind"] ∧
      generated.typeDefs = generated.definitions.map Definition.typeSource ∧
      generated.typeDefs.length = 3 ∧ generated.decoderDefs.length = 3 ∧
      generated.exposing = ["Page", "Kind(..)"] := by
  have named : "" ∉ widgets.shapeNames := by decide
  obtain ⟨generated, run, types, exported⟩ : ∃ generated,
      widgets.generate (.text "eu-west-1") = .ok generated ∧
      generated.definitions.map Definition.type = ["Query", "Page", "Kind"] ∧
      (generated.definitions.filterMap fun
        | .union union => some (union.type ++ "(..)")
        | .record record => if record.category = .request then none else some record.type) =
          ["Page", "Kind(..)"] := ⟨_, rfl, rfl, rfl⟩
  obtain ⟨drafts, -, lists⟩ := generate_aligned named (.text "eu-west-1")
  obtain ⟨-, -, typeDefs, decoderDefs, -, exposing⟩ := lists generated run
  have three : generated.definitions.length = 3 := by
    rw [← List.length_map Definition.type, types]
    rfl
  rw [run] at drafts
  refine ⟨named, generated, run, drafts, types, typeDefs, ?_, ?_, exposing.trans exported⟩
  · rw [typeDefs, List.length_map, three]
  · rw [decoderDefs, List.length_map, three]

end Model

end ElmBindgen
