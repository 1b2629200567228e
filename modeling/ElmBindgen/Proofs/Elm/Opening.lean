import ElmBindgen.Generate
import Mathlib.Data.List.DropRight

/-!
# How source texts open

No source text of a definition is empty: each opens with the line that introduces the type or the
decoder. So the lists of types and decoders of a module line up with its definitions.

## Main definitions

* `Elm.Opens`: a source text opens with a line
* `Elm.Definition.typeSource`, `Elm.Definition.decoderSource`: the texts of a definition
* `Elm.Definition.typeHeading`, `Elm.Definition.decoderHeading`: the lines that introduce the type
  and the decoder of a definition

## Main results

* `Elm.Definition.opens_typeSource`, `Elm.Definition.opens_decoderSource`: what the texts of a
  definition define
* `GeneratedModule.typeDefs_eq`, `GeneratedModule.decoderDefs_eq`, `GeneratedModule.exposing_eq`:
  the lists of a module
-/

namespace ElmBindgen

open Elm (Definition)

/-! ## Sources -/

namespace Elm

/-- A source text opens with a line, but for newlines at the end of the line. -/
def Opens (line source : String) : Prop :=
  (dropNewlines line ++ "\n").toList <+: (source ++ "\n").toList

theorem toList_dropNewlines (text : String) :
    (dropNewlines text).toList = text.toList.rdropWhile (· = '\n') := by
  rw [dropNewlines, String.toList_ofList]
  rfl

/-- Text that does not end in a newline stays at the front. -/
theorem prefix_dropNewlines {front : String} (whole : front.toList.getLast? ≠ some '\n')
    (rest : String) : front.toList <+: (dropNewlines (front ++ rest)).toList := by
  rw [toList_dropNewlines, String.toList_append]
  -- What is dropped is dropped from the end, and the front stops it at the latest.
  induction rest.toList using List.reverseRecOn with
  | nil =>
    have kept : front.toList.rdropWhile (· = '\n') = front.toList := by
      rw [List.rdropWhile_eq_self_iff]
      intro nonempty newline
      rw [List.getLast?_eq_some_getLast nonempty] at whole
      exact whole (congrArg some (by simpa using newline))
    rw [List.append_nil]
    exact ⟨[], (List.append_nil _).trans kept.symm⟩
  | append_singleton rest c ih =>
    rw [← List.append_assoc]
    by_cases newline : c = '\n'
    · rwa [List.rdropWhile_concat_pos _ _ _ (by simpa using newline)]
    · rw [List.rdropWhile_concat_neg _ _ _ (by simpa using newline), List.append_assoc]
      exact List.prefix_append _ _

/-- Without its newlines at the end a text is still followed by a newline if it was. -/
theorem rdropWhile_concat_prefix (cs : List Char) :
    cs.rdropWhile (· = '\n') ++ ['\n'] <+: cs ++ ['\n'] := by
  induction cs using List.reverseRecOn with
  | nil => exact List.prefix_refl _
  | append_singleton cs c ih =>
    by_cases newline : c = '\n'
    · rw [List.rdropWhile_concat_pos _ _ _ (by simpa using newline), newline]
      exact ih.trans (List.prefix_append _ _)
    · refine ⟨[], ?_⟩
      rw [List.append_nil, List.rdropWhile_concat_neg _ _ _ (by simpa using newline)]

/-- A template opens with its first line. -/
theorem opens_dropNewlines (line rest : String) :
    Opens line (dropNewlines (line ++ "\n" ++ rest)) := by
  simp only [Opens, String.toList_append, toList_dropNewlines, String.reduceToList]
  -- If nothing but newlines follows the line, all of them are dropped; otherwise none before.
  induction rest.toList using List.reverseRecOn with
  | nil =>
    refine ⟨[], ?_⟩
    rw [List.append_nil, List.append_nil, List.rdropWhile_concat_pos _ _ _ (by simp)]
  | append_singleton cs c ih =>
    rw [← List.append_assoc]
    by_cases newline : c = '\n'
    · rwa [List.rdropWhile_concat_pos _ _ _ (by simpa using newline)]
    · rw [List.rdropWhile_concat_neg _ _ _ (by simpa using newline)]
      have front := rdropWhile_concat_prefix line.toList
      simpa only [List.append_assoc] using front.trans (List.prefix_append _ (cs ++ [c] ++ ['\n']))

/-- A text that opens with more than newlines is not empty. -/
theorem Opens.ne_empty {line source : String} (opens : Opens line source) {c : Char}
    (here : c ∈ line.toList) (visible : c ≠ '\n') : source ≠ "" := by
  rintro rfl
  -- There is only room for the newline behind the line.
  have short := opens.length_le
  rw [String.toList_append, toList_dropNewlines] at short
  have dropped : line.toList.rdropWhile (· = '\n') = [] := by
    rw [← List.length_eq_zero_iff]
    simpa using short
  have newline := List.rdropWhile_eq_nil_iff.mp dropped c here
  exact visible (by simpa using newline)

namespace Definition

/-- The source of the type of a definition. -/
def typeSource : Definition → String
  | union u => u.typeSource
  | record r => r.typeSource

/-- The source of the decoder of a definition. -/
def decoderSource : Definition → String
  | union u => u.decoderSource
  | record r => r.decoderSource

/-- The line that introduces the type of a definition. -/
def typeHeading : Definition → String
  | union u => "type " ++ u.type
  | record r => "type alias " ++ r.type ++ " ="

/-- The line that introduces the decoder of a definition. -/
def decoderHeading (definition : Definition) : String :=
  decoderName definition.type ++ " : JD.Decoder " ++ definition.type

variable (definition : Definition)

theorem render_eq : definition.render =
    ⟨definition.render.exposeAs, some definition.typeSource, some definition.decoderSource⟩ := by
  cases definition <;> rfl

theorem opens_typeSource : Opens definition.typeHeading definition.typeSource := by
  cases definition with
  | union u => exact opens_dropNewlines _ _
  | record r =>
    have ends : " =\n" = " =" ++ "\n" := rfl
    rw [typeSource, Record.typeSource, recordType, ends]
    simpa only [typeHeading, String.append_assoc] using
      opens_dropNewlines ("type alias " ++ r.type ++ " =") _

theorem opens_decoderSource : Opens definition.decoderHeading definition.decoderSource := by
  cases definition with
  | union u =>
    rw [decoderSource, Union.decoderSource, unionDecoder]
    simpa only [decoderHeading, type, String.append_assoc] using
      opens_dropNewlines (decoderName u.type ++ " : JD.Decoder " ++ u.type) _
  | record r =>
    rw [decoderSource, Record.decoderSource, recordDecoder]
    simpa only [decoderHeading, type, String.append_assoc] using
      opens_dropNewlines (decoderName r.type ++ " : JD.Decoder " ++ r.type) _

theorem typeSource_ne_empty : definition.typeSource ≠ "" := by
  have first : 't' ∈ definition.typeHeading.toList := by cases definition <;> simp [typeHeading]
  exact definition.opens_typeSource.ne_empty first (by decide)

theorem decoderSource_ne_empty : definition.decoderSource ≠ "" := by
  have colon : ':' ∈ definition.decoderHeading.toList := by simp [decoderHeading]
  exact definition.opens_decoderSource.ne_empty colon (by decide)

end Definition

end Elm

/-! ## Modules -/

namespace GeneratedModule

variable {α : Type}

/-- If none of the texts is empty, those that are there are all present. -/
theorem present_map {xs : List α} {text : α → Option String}
    (nonempty : ∀ x ∈ xs, text x ≠ some "") : present (xs.map text) = xs.filterMap text := by
  rw [present, List.filterMap_map, Function.id_comp, List.filter_eq_self]
  intro own here
  obtain ⟨x, listed, given⟩ := List.mem_filterMap.mp here
  refine decide_eq_true ?_
  rintro rfl
  exact nonempty x listed given

variable (generated : GeneratedModule)

/-- Every definition has a type, and they come in the order of the definitions. -/
theorem typeDefs_eq : generated.typeDefs = generated.definitions.map Definition.typeSource := by
  have texts (definition : Definition) :
      definition.render.typeDef = some definition.typeSource := by rw [definition.render_eq]
  rw [typeDefs, rendered, List.map_map, present_map]
  · simp only [Function.comp_def, texts, List.filterMap_eq_map']
  · intro definition _ empty
    rw [Function.comp, texts] at empty
    exact definition.typeSource_ne_empty (Option.some.inj empty)

/-- Every definition has a decoder, and they come in the order of the definitions. -/
theorem decoderDefs_eq :
    generated.decoderDefs = generated.definitions.map Definition.decoderSource := by
  have texts (definition : Definition) :
      definition.render.decoderDef = some definition.decoderSource := by rw [definition.render_eq]
  rw [decoderDefs, rendered, List.map_map, present_map]
  · simp only [Function.comp_def, texts, List.filterMap_eq_map']
  · intro definition _ empty
    rw [Function.comp, texts] at empty
    exact definition.decoderSource_ne_empty (Option.some.inj empty)

/-- If types have names, every definition that is exported is exported under its own. -/
theorem exposing_eq (named : ∀ definition ∈ generated.definitions, definition.type ≠ "") :
    generated.exposing = generated.definitions.filterMap fun definition =>
      definition.render.exposeAs := by
  rw [exposing, rendered, List.map_map, present_map]
  · rfl
  · intro definition listed empty
    have nonempty := named definition listed
    -- A union is exported with parentheses, whatever its name.
    cases definition with
    | union union =>
      have long := congrArg String.length (Option.some.inj empty)
      simp at long
    | record record =>
      rw [Function.comp, Definition.render, Elm.Record.render] at empty
      split at empty
      · cases empty
      · exact nonempty (Option.some.inj empty)

end GeneratedModule

end ElmBindgen
