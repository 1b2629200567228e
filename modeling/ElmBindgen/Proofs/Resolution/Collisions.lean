import ElmBindgen.Proofs.Resolution.References
import Mathlib.Data.List.Nodup

/-!
# Names that are defined twice

The slots of a table are told apart by the names of shapes, but what a module defines is
named after them in another case. So a module defines no name twice as long as no two of its
shapes are told apart by the case of their first letters alone.

## Main definitions

* `Elm.CaseVariants`: names that agree up to the case of the first letter
* `GeneratedModule.types`, `GeneratedModule.decoderNames`: the names that a module defines
* `Model.definedNames`: the names of the shapes that have definitions
* `Model.TellsApart`: a way to rename these shapes that makes no two of them the same

## Main results

* `Elm.typeName_eq_iff`, `Elm.decoderName_eq_iff`: alphanumeric names with the same type, or
  with the same decoder, are case variants
* `Model.generate_nodup_iff`: when a module defines no name twice
-/

namespace ElmBindgen

open Elm (Definition IsAlphanumeric decoderName typeName)

namespace Elm

/-! ## Names in another case -/

/-- Names that agree up to the case of their first letters. -/
def CaseVariants (first second : String) : Prop :=
  first.toList.modifyHead Char.toLower = second.toList.modifyHead Char.toLower

instance (first second : String) : Decidable (CaseVariants first second) :=
  inferInstanceAs (Decidable (_ = _))

/-- The case mappings of ASCII letters and digits forget the case and nothing else. -/
theorem case_case {c : Char} (alphanumeric : c.isAlphanum) :
    c.toUpper.toLower = c.toLower ∧ c.toLower.toUpper = c.toUpper :=
  of_isAlphanum (fun c => c.toUpper.toLower = c.toLower ∧ c.toLower.toUpper = c.toUpper)
    (by decide +kernel) alphanumeric

section Variants

variable {name first second : String}

theorem modifyHead_case (alphanumeric : IsAlphanumeric name) :
    (name.toList.modifyHead Char.toUpper).modifyHead Char.toLower =
        name.toList.modifyHead Char.toLower ∧
      (name.toList.modifyHead Char.toLower).modifyHead Char.toUpper =
        name.toList.modifyHead Char.toUpper := by
  cases chars : name.toList with
  | nil => exact ⟨rfl, rfl⟩
  | cons c rest =>
    obtain ⟨lower, upper⟩ := case_case (alphanumeric c (by simp [chars]))
    exact ⟨congrArg (· :: rest) lower, congrArg (· :: rest) upper⟩

/-- Alphanumeric names with the same type are case variants. -/
theorem typeName_eq_iff (own : IsAlphanumeric first) (other : IsAlphanumeric second) :
    typeName first = typeName second ↔ CaseVariants first second := by
  rw [← String.toList_inj, toList_typeName own, toList_typeName other, CaseVariants]
  constructor
  · intro same
    rw [← (modifyHead_case own).1, same, (modifyHead_case other).1]
  · intro same
    rw [← (modifyHead_case own).2, same, (modifyHead_case other).2]

/-- Alphanumeric names with the same decoder are case variants. -/
theorem decoderName_eq_iff (own : IsAlphanumeric first) (other : IsAlphanumeric second) :
    decoderName (typeName first) = decoderName (typeName second) ↔ CaseVariants first second := by
  rw [← String.toList_inj, toList_decoderName (isAlphanumeric_typeName own),
    toList_decoderName (isAlphanumeric_typeName other), List.append_left_inj,
    toList_typeName own, toList_typeName other, (modifyHead_case own).1,
    (modifyHead_case other).1, CaseVariants]

-- Beyond ASCII the types may differ where the decoders do not: this name starts with the
-- Kelvin sign, an upper-case letter whose lower case is that of an ASCII letter.
example : typeName "Kind" ≠ typeName "\u212Aind" ∧
    decoderName (typeName "Kind") = decoderName (typeName "\u212Aind") := by decide

end Variants

/-! ## What definitions define -/

/-- A decoder is defined under the name of the decoder of its type. -/
theorem Definition.prefix_decoderSource (definition : Definition) :
    (decoderName definition.type ++ " : JD.Decoder ").toList <+:
      definition.decoderSource.toList := by
  have whole : (decoderName definition.type ++ " : JD.Decoder ").toList.getLast? ≠ some '\n' := by
    simp
  cases definition with
  | union union =>
    rw [decoderSource, Union.decoderSource, unionDecoder]
    simpa only [String.append_assoc, type] using prefix_dropNewlines whole _
  | record record =>
    rw [decoderSource, Record.decoderSource, recordDecoder]
    simpa only [String.append_assoc, type] using prefix_dropNewlines whole _

/-- Definitions that are exported under one name have one type, if types are alphanumeric. -/
theorem Definition.type_eq_of_exposeAs {first second : Definition} {name : String}
    (own : IsAlphanumeric first.type) (other : IsAlphanumeric second.type)
    (exposed : first.render.exposeAs = some name) (again : second.render.exposeAs = some name) :
    first.type = second.type := by
  -- Only a union is exported under a name with parentheses.
  have letters {type : String} (alphanumeric : IsAlphanumeric type) : '(' ∉ type.toList :=
    fun here => absurd (alphanumeric _ here) (by decide)
  have exported {record : Record} (exposed : record.render.exposeAs = some name) :
      record.type = name := by
    rw [Record.render] at exposed
    split at exposed
    · cases exposed
    · exact Option.some.inj exposed
  cases first with
  | union first =>
    obtain rfl := Option.some.inj exposed
    cases second with
    | union second => exact ((String.append_left_inj _).mp (Option.some.inj again)).symm
    | record second =>
      refine absurd ?_ (letters other)
      rw [type, exported again]
      simp
  | record first =>
    obtain rfl := exported exposed
    cases second with
    | union second =>
      refine absurd ?_ (letters own)
      rw [type, ← Option.some.inj again]
      simp
    | record second => exact (exported again).symm

end Elm

/-! ## What modules define -/

namespace GeneratedModule

variable (generated : GeneratedModule)

/-- The types that a module defines. -/
def types : List String := generated.definitions.map Definition.type

/-- The decoders that a module defines. -/
def decoderNames : List String := generated.types.map decoderName

/-- The decoders of a module are defined under their names. -/
theorem decoderDefs_prefix :
    List.Forall₂ (fun name source => (name ++ " : JD.Decoder ").toList <+: source.toList)
      generated.decoderNames generated.decoderDefs := by
  rw [decoderNames, types, generated.decoderDefs_eq, List.map_map, List.forall₂_map_left_iff,
    List.forall₂_map_right_iff, List.forall₂_same]
  exact fun definition _ => definition.prefix_decoderSource

/-- If types are alphanumeric and no type is defined twice, no name is exported twice. -/
theorem nodup_exposing (alphanumeric : ∀ type ∈ generated.types, IsAlphanumeric type)
    (distinct : generated.types.Nodup) : generated.exposing.Nodup := by
  rw [exposing, present, rendered]
  refine List.Nodup.filter _ ?_
  rw [List.map_map, List.filterMap_map, List.Nodup, List.pairwise_filterMap]
  have apart := List.pairwise_map.mp distinct
  refine apart.imp_of_mem ?_
  intro first second here there different name exposed name' again same
  subst same
  exact different (Definition.type_eq_of_exposeAs (alphanumeric _ (List.mem_map_of_mem here))
    (alphanumeric _ (List.mem_map_of_mem there)) exposed again)

end GeneratedModule

namespace Model

variable {model : Model}

/-- The names of the shapes that have definitions after all operations. -/
def definedNames (model : Model) : List String :=
  (model.definitions.on .empty).2.filled.map Prod.fst

/-- No two shapes with definitions get the same name. -/
def TellsApart (model : Model) (rename : String → String) : Prop :=
  ∀ first ∈ model.definedNames, ∀ second ∈ model.definedNames,
    rename first = rename second → first = second

/-- What a generated module defines is named after the shapes that have definitions, each of
them once. -/
theorem types_of_generate {region : Value} {generated : GeneratedModule}
    (run : model.generate region = .ok generated) :
    model.definedNames.Nodup ∧ generated.types = model.definedNames.map typeName ∧
      (∀ name ∈ model.definedNames, ∃ use, model.Uses use ∧ use.name = name) := by
  obtain ⟨service, definitions, table, -, collected, rfl⟩ := generate_ok_iff.mp run
  obtain ⟨distinct, settled⟩ := settled_of_definitions collected
  obtain ⟨-, rfl⟩ := walk_of_definitions collected
  -- What is defined is what the slots of the table hold at the end.
  rw [definedNames, collected]
  have slots {name : String} {definition : Definition} (here : (name, definition) ∈ table.filled) :
      table.find? name = some (.filled definition) := (SlotTable.mem_filled_iff distinct).mp here
  refine ⟨?_, ?_, ?_⟩
  · rw [SlotTable.map_fst_filled distinct]
    exact distinct.filter _
  · rw [GeneratedModule.types, SlotTable.definitions, List.map_map, List.map_map]
    refine List.map_congr_left fun entry here => ?_
    have held := slots here
    exact (settled entry.1 (SlotTable.mem_names_of_find? held)).type held
  · intro name here
    obtain ⟨⟨_, definition⟩, listed, rfl⟩ := List.mem_map.mp here
    obtain ⟨use, _, uses, named, -⟩ := settled _ (SlotTable.mem_names_of_find? (slots listed))
    exact ⟨use, uses, named⟩

/-- A generated module defines no type twice, and no decoder, exactly if no two shapes with
definitions get the same type, or decoder. If names are alphanumeric these are the same:
shapes get the same type or decoder exactly if their names differ in the case of the first
letter alone, and a module that defines no type twice exports no name twice. -/
theorem generate_nodup_iff {region : Value} {generated : GeneratedModule}
    (run : model.generate region = .ok generated) :
    model.definedNames.Nodup ∧ generated.types = model.definedNames.map typeName ∧
      List.Forall₂ (fun name source => (name ++ " : JD.Decoder ").toList <+: source.toList)
        generated.decoderNames generated.decoderDefs ∧
      (generated.types.Nodup ↔ model.TellsApart typeName) ∧
      (generated.decoderNames.Nodup ↔ model.TellsApart (decoderName ∘ typeName)) ∧
      (model.Alphanumeric →
        (generated.types.Nodup ↔ ∀ first ∈ model.definedNames, ∀ second ∈ model.definedNames,
          Elm.CaseVariants first second → first = second) ∧
        (generated.decoderNames.Nodup ↔ generated.types.Nodup) ∧
        (generated.types.Nodup → generated.exposing.Nodup)) := by
  obtain ⟨distinct, types, used⟩ := types_of_generate run
  have decoders : generated.decoderNames =
      model.definedNames.map (decoderName ∘ typeName) := by
    rw [GeneratedModule.decoderNames, types, List.map_map]
  have typesNodup : generated.types.Nodup ↔ model.TellsApart typeName := by
    rw [types]
    exact List.nodup_map_iff_inj_on distinct
  have decodersNodup : generated.decoderNames.Nodup ↔
      model.TellsApart (decoderName ∘ typeName) := by
    rw [decoders]
    exact List.nodup_map_iff_inj_on distinct
  refine ⟨distinct, types, generated.decoderDefs_prefix, typesNodup, decodersNodup, ?_⟩
  intro alphanumeric
  have letters : ∀ name ∈ model.definedNames, IsAlphanumeric name := by
    intro name here
    obtain ⟨use, uses, rfl⟩ := used name here
    exact alphanumeric.use uses
  refine ⟨?_, ?_, ?_⟩
  · rw [typesNodup]
    refine forall₂_congr fun first here => forall₂_congr fun second there => ?_
    rw [Elm.typeName_eq_iff (letters first here) (letters second there)]
  · rw [typesNodup, decodersNodup]
    refine forall₂_congr fun first here => forall₂_congr fun second there => ?_
    have type := Elm.typeName_eq_iff (letters first here) (letters second there)
    have decoder := Elm.decoderName_eq_iff (letters first here) (letters second there)
    rw [Function.comp, Function.comp, type, decoder]
  -- Exported names differ by more than types only in parentheses, which types do not have.
  · refine generated.nodup_exposing ?_
    intro type here
    rw [types] at here
    obtain ⟨name, there, rfl⟩ := List.mem_map.mp here
    exact Elm.isAlphanumeric_typeName (letters name there)

/-- A box with two items whose shapes differ in the case of their first letters. -/
def boxes : Model where
  metadata := .object [
    ("endpointPrefix", .text "boxes"), ("apiVersion", .text "2020-01-01"),
    ("protocol", .text "json"), ("signatureVersion", .text "v4")]
  operations := some (.object [("Open", .object [("output", .named "Box")])])
  shapes := .object [
    ("Box", .object [("type", .text "structure"),
      ("members", .object [("First", .named "item"), ("Second", .named "Item")])]),
    ("item", .object [("type", .text "structure")]),
    ("Item", .object [("type", .text "structure")])]

/-- The module for the boxes defines a type twice, and its decoder, and exports it twice. -/
theorem generate_boxes :
    ∃ generated, boxes.Alphanumeric ∧ boxes.generate .null = .ok generated ∧
      boxes.definedNames = ["Box", "item", "Item"] ∧
      ¬generated.types.Nodup ∧ ¬generated.decoderNames.Nodup ∧
      generated.exposing = ["Box", "Item", "Item"] := by
  have alphanumeric : boxes.Alphanumeric := .of_shapes rfl (by decide)
  obtain ⟨generated, run, exposing⟩ : ∃ generated, boxes.generate .null = .ok generated ∧
      generated.exposing = ["Box", "Item", "Item"] := ⟨_, rfl, rfl⟩
  have names : boxes.definedNames = ["Box", "item", "Item"] := rfl
  obtain ⟨-, -, -, -, -, exact⟩ := generate_nodup_iff run
  obtain ⟨types, decoders, -⟩ := exact alphanumeric
  have twice : ¬generated.types.Nodup := by
    rw [types, names]
    intro apart
    exact absurd (apart "item" (by decide) "Item" (by decide) (by decide)) (by decide)
  exact ⟨generated, alphanumeric, run, names, twice, decoders.not.mpr twice, exposing⟩

end Model

end ElmBindgen
