import ElmBindgen.Proofs.Graph.Restriction
import ElmBindgen.Proofs.Resolution.Success

/-!
# Definitions and other operations

What is defined for a shape does not depend on the operations that other shapes are reached
by, although their definitions share one table and are made in the order in which the
operations are gone through: if a module can be generated for a literal model, one can be
generated for every model with some of its operations, and all its sources are among those of
the larger module. Only the category of a record, which no source shows, may differ.

## Main definitions

* `Elm.Definition.sources`: the type of a definition and its source texts
* `GeneratedModule.sources`: those of all definitions of a module

## Main results

* `Model.Restricts.definitions_ok`: with fewer operations a resolution still succeeds
* `Model.generate_restricts`: with fewer operations a module has fewer sources, with the same
  operations in another order it has the same
-/

namespace ElmBindgen

open Elm (Category Definition Record)

/-- The type of a definition with the source texts of the type and of its decoder. -/
def Elm.Definition.sources (definition : Definition) : String × Option String × Option String :=
  (definition.type, definition.render.typeDef, definition.render.decoderDef)

/-- The types of a module with their source texts. -/
def GeneratedModule.sources (generated : GeneratedModule) :
    List (String × Option String × Option String) :=
  generated.definitions.map Definition.sources

namespace Model

variable {part whole : Model} {names : List String} {table own : SlotTable}
  {definitions few : List Definition}

theorem service_congr (metadata : part.metadata = whole.metadata) (region : Value) :
    part.service region = whole.service region := by
  obtain ⟨_, operations, shapes⟩ := part
  cases metadata
  rfl

namespace Restricts

/-- Names that are closed in the larger model are closed in the smaller one. -/
theorem closed (restricts : part.Restricts whole) (literal : whole.Literal)
    (closed : whole.Closed names) : part.Closed names where
  record := by
    intro use uses here handler
    have used := restricts.uses uses
    obtain ⟨category, record, targets, outline, inside⟩ := closed.record use used here handler
    exact ⟨category, record, targets, (restricts.outlines_iff literal used).mpr outline, inside⟩
  union := by
    intro use uses here handler
    exact closed.union use (restricts.uses uses) here handler

/-- If the definitions of the larger model are collected, so are those of the smaller one, and
no other shapes get slots. -/
theorem definitions_ok (restricts : part.Restricts whole) (literal : whole.Literal)
    (run : whole.definitions.on .empty = (.ok definitions, table)) :
    ∃ few own, part.definitions.on .empty = (.ok few, own) ∧ own.names ⊆ table.names := by
  obtain ⟨operations, all, listed, listed', inside⟩ := restricts.operations
  -- What the larger model has resolved is closed, and the smaller one starts in it.
  have closed := restricts.closed literal (literal.closed_of_definitions run)
  have resolved : ∀ name ∈ operations, ∃ uses, part.references name = .ok uses := by
    intro name here
    rw [restricts.references listed here]
    exact references_of_definitions listed' run name (inside name here).1
  have enters : part.Enters table.names part.payloads := by
    intro payload here
    have entered := enters_of_definitions run payload (restricts.payloads_subset here)
    exact ⟨used_payloads payload here, entered.2⟩
  obtain ⟨few, own, collected⟩ := closed.definitions_ok listed resolved enters
  obtain ⟨walk, -⟩ := walk_of_definitions collected
  exact ⟨few, own, collected, closed.names_subset walk enters (List.nil_subset _)⟩

/-- Settled slots of one shape hold the same definition in the smaller model and in the larger one,
up to the category of a record. -/
theorem definition_eq (restricts : part.Restricts whole) (literal : whole.Literal) {name : String}
    {definition : Definition} (settled : part.Settled own name)
    (found : own.find? name = some (.filled definition)) (settled' : whole.Settled table name) :
    ∃ other, table.find? name = some (.filled other) ∧ (other = definition ∨
      ∃ record category, definition = .record record ∧
        other = .record { record with category := category }) := by
  obtain ⟨use, _, uses, rfl, here, settles⟩ := settled
  obtain ⟨use', slot', uses', same, found', settles'⟩ := settled'
  cases here.symm.trans found
  have used := restricts.uses uses
  have alike := literal.alike_of_name used uses' same.symm
  -- The shape is handled in one way, and what is made of it depends on the shape alone.
  cases settles with
  | record handler outline _ =>
    rw [alike.handler] at handler
    obtain ⟨_, _, _, rfl, outline', -⟩ := settles'.of_record handler
    have own := ((restricts.outlines_iff literal used).mp outline).of_alike alike
    obtain ⟨-, rfl⟩ := own.unique outline'
    exact ⟨_, found', .inr ⟨_, _, rfl, rfl⟩⟩
  | union handler made =>
    rw [alike.handler] at handler
    obtain ⟨_, rfl, made'⟩ := settles'.of_union handler
    rw [alike.union] at made
    cases made.symm.trans made'
    exact ⟨_, found', .inl rfl⟩

/-- Settled slots of one shape hold definitions with the same sources, in the smaller model and
in the larger one. -/
theorem sources_eq (restricts : part.Restricts whole) (literal : whole.Literal) {name : String}
    {definition : Definition} (settled : part.Settled own name)
    (found : own.find? name = some (.filled definition)) (settled' : whole.Settled table name) :
    ∃ other, table.find? name = some (.filled other) ∧ definition.sources = other.sources := by
  obtain ⟨other, found', rfl | ⟨_, _, rfl, rfl⟩⟩ :=
    restricts.definition_eq literal settled found settled'
  · exact ⟨_, found', rfl⟩
  · exact ⟨_, found', rfl⟩

/-- If the definitions of the larger model are collected, so are those of the smaller one, and
their sources are among those of the larger one. -/
theorem sources_subset (restricts : part.Restricts whole) (literal : whole.Literal)
    (run : whole.definitions.on .empty = (.ok definitions, table)) :
    ∃ few own, part.definitions.on .empty = (.ok few, own) ∧
      few.map Definition.sources ⊆ definitions.map Definition.sources := by
  obtain ⟨few, own, run', inside⟩ := restricts.definitions_ok literal run
  refine ⟨few, own, run', ?_⟩
  obtain ⟨-, rfl⟩ := walk_of_definitions run
  obtain ⟨-, rfl⟩ := walk_of_definitions run'
  obtain ⟨distinct, settled⟩ := settled_of_definitions run
  obtain ⟨distinct', settled'⟩ := settled_of_definitions run'
  intro sources here
  obtain ⟨definition, made, rfl⟩ := List.mem_map.mp here
  obtain ⟨⟨name, _⟩, filled, rfl⟩ := List.mem_map.mp made
  have found := (SlotTable.mem_filled_iff distinct').mp filled
  have known := SlotTable.mem_names_of_find? found
  obtain ⟨other, found', same⟩ :=
    restricts.sources_eq literal (settled' name known) found (settled name (inside known))
  have filled' := (SlotTable.mem_filled_iff distinct).mpr found'
  exact List.mem_map.mpr ⟨other, List.mem_map.mpr ⟨_, filled', rfl⟩, same.symm⟩

/-- If a module is generated for the larger model, one is generated for the smaller one, and its
sources are among those of the larger one. -/
theorem generate_ok (restricts : part.Restricts whole) (literal : whole.Literal) {region : Value}
    {generated : GeneratedModule} (run : whole.generate region = .ok generated) :
    ∃ own, part.generate region = .ok own ∧ own.sources ⊆ generated.sources := by
  obtain ⟨service, definitions, table, described, collected, rfl⟩ := generate_ok_iff.mp run
  obtain ⟨few, own, collected', inside⟩ := restricts.sources_subset literal collected
  rw [← service_congr restricts.metadata] at described
  have run' := generate_ok_iff.mpr ⟨service, few, own, described, collected', rfl⟩
  exact ⟨⟨service, few⟩, run', inside⟩

end Restricts

/-- With some of the operations of a literal model, in any order, a module can be generated as
well, and what it defines is defined with the same texts as with all of them. With the same
operations in another order a module can be generated in the same cases, and it defines the
same. -/
theorem generate_restricts (literal : whole.Literal) (restricts : part.Restricts whole)
    (region : Value) :
    (∀ generated, whole.generate region = .ok generated →
      ∃ own, part.generate region = .ok own ∧ own.sources ⊆ generated.sources) ∧
    (whole.Restricts part →
      ((∃ own, part.generate region = .ok own) ↔
        ∃ generated, whole.generate region = .ok generated) ∧
      ∀ own generated, part.generate region = .ok own → whole.generate region = .ok generated →
        ∀ sources, sources ∈ own.sources ↔ sources ∈ generated.sources) := by
  refine ⟨fun generated run => restricts.generate_ok literal run, ?_⟩
  intro back
  have literal' := restricts.literal literal
  refine ⟨⟨?_, ?_⟩, ?_⟩
  · rintro ⟨own, run⟩
    obtain ⟨generated, run', -⟩ := back.generate_ok literal' run
    exact ⟨generated, run'⟩
  · rintro ⟨generated, run⟩
    obtain ⟨own, run', -⟩ := restricts.generate_ok literal run
    exact ⟨own, run'⟩
  · intro own generated run run' sources
    obtain ⟨_, again, inside⟩ := restricts.generate_ok literal run'
    cases run.symm.trans again
    obtain ⟨_, again', inside'⟩ := back.generate_ok literal' run
    cases run'.symm.trans again'
    exact ⟨fun here => inside here, fun there => inside' there⟩

/-- The operation that takes an order. -/
def buy : String × Value := ("Buy", .object [("input", .named "Order")])

/-- The operation that returns an item. -/
def browse : String × Value := ("Browse", .object [("output", .named "Item")])

/-- A market with some operations, where items have orders and orders have items. -/
def market (operations : List (String × Value)) : Model where
  metadata := .object [
    ("endpointPrefix", .text "market"), ("apiVersion", .text "2020-01-01"),
    ("protocol", .text "json"), ("signatureVersion", .text "v4")]
  operations := some (.object operations)
  shapes := .object [
    ("Order", .object [("type", .text "structure"),
      ("members", .object [("Items", .named "Items")])]),
    ("Items", .object [("type", .text "list"), ("member", .named "Item")]),
    ("Item", .object [("type", .text "structure"),
      ("members", .object [("State", .named "State"), ("Last", .named "Order")])]),
    ("State", .object [("type", .text "string"), ("enum", .list [.text "new", .text "used"])])]

/-- If items are reached first, definitions come in another order but with sources that are
there as well if orders are reached first. -/
theorem generate_market :
    ∃ alone turned both, (market [browse]).generate .null = .ok alone ∧
      (market [browse, buy]).generate .null = .ok turned ∧
      (market [buy, browse]).generate .null = .ok both ∧
      alone.definitions.map Definition.type = ["Item", "State", "Order"] ∧
      both.definitions.map Definition.type = ["Order", "Item", "State"] ∧
      alone.sources ⊆ both.sources ∧
      ∀ sources, sources ∈ turned.sources ↔ sources ∈ both.sources := by
  have literal : (market [buy, browse]).Literal := .of_listed (by decide)
  have fewer : (market [browse]).Restricts (market [buy, browse]) :=
    .of_entries rfl rfl rfl rfl (by decide) (by decide) (by simp)
  have permuted : (market [browse, buy]).Restricts (market [buy, browse]) :=
    .of_entries rfl rfl rfl rfl (by decide) (by decide) (by simp)
  have back : (market [buy, browse]).Restricts (market [browse, buy]) :=
    .of_entries rfl rfl rfl rfl (by decide) (by decide) (by simp)
  obtain ⟨both, run, order⟩ : ∃ both, (market [buy, browse]).generate .null = .ok both ∧
      both.definitions.map Definition.type = ["Order", "Item", "State"] := ⟨_, rfl, rfl⟩
  obtain ⟨alone, run', order'⟩ : ∃ alone, (market [browse]).generate .null = .ok alone ∧
      alone.definitions.map Definition.type = ["Item", "State", "Order"] := ⟨_, rfl, rfl⟩
  obtain ⟨_, again, inside⟩ := (generate_restricts literal fewer .null).1 both run
  cases run'.symm.trans again
  obtain ⟨alike, same⟩ := (generate_restricts literal permuted .null).2 back
  obtain ⟨turned, run''⟩ := alike.mpr ⟨both, run⟩
  exact ⟨alone, turned, both, run', run'', run, order', order, inside,
    same turned both run'' run⟩

end Model

end ElmBindgen
