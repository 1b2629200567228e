import ElmBindgen.Generate
import ElmBindgen.Proofs.Elm.Source
import ElmBindgen.Proofs.Resolution.Order

/-!
# References between definitions

The fragment of a member is built before the shape that it refers to has a definition,
and this shape may well be the one that the member belongs to. Still, no reference of a
generated module is left open: at the end every shape that was referred to has a filled
slot.

## Main definitions

* `Elm.Fragment.IsBasic`: a fragment that needs no definition
* `GeneratedModule.Defines`: a module defines what a fragment refers to
* `Model.Alphanumeric`, `Model.NeverNamed`: what is asked of a description

## Main results

* `Model.Outlines.encloses`: the members of a record refer to the targets of its outline
* `Model.generate_defines`: every member of a generated record refers to something basic
  or to a definition of the module
-/

namespace ElmBindgen

open Elm (Category Definition Fragment Member Record)

/-- The fragment of a primitive type or of a value of which nothing is known. -/
def Elm.Fragment.IsBasic (fragment : Fragment) : Prop :=
  fragment = .untyped ∨ ∃ type, Fragment.primitive? type = some fragment

theorem Elm.Fragment.IsBasic.isWord {fragment : Fragment} (basic : fragment.IsBasic) :
    Elm.IsWord fragment.type ∧ Elm.IsWord fragment.decoder := by
  obtain rfl | ⟨type, known⟩ := basic
  · decide
  · exact Elm.isWord_primitive known

theorem Elm.Fragment.isBasic_getD (type : String) :
    ((Fragment.primitive? type).getD .untyped).IsBasic := by
  cases known : Fragment.primitive? type with
  | none => exact .inl rfl
  | some fragment => exact .inr ⟨type, known⟩

/-- A module defines a type and a decoder for it, the decoder in its first line. -/
def GeneratedModule.Defines (generated : GeneratedModule) (fragment : Fragment) : Prop :=
  ∃ definition ∈ generated.definitions, definition.type = fragment.type ∧
    ∃ source, definition.render.decoderDef = some source ∧
      Elm.firstLine source = fragment.decoder ++ " : JD.Decoder " ++ fragment.type

namespace Model

variable {model : Model}

/-! ## What members refer to -/

/-- A chain without a target ends in something basic. -/
theorem isBasic_of_chain {bound : Nat} {use : ShapeUse} {chain : Chain}
    (found : model.chain bound use = .ok chain) {fragment : Fragment}
    (leaf : chain.leaf = .plain fragment) : fragment.IsBasic := by
  induction bound generalizing use chain with
  | zero => cases found
  | succ bound ih =>
    obtain ⟨step, stepped, found⟩ := Fault.bind_ok_iff.mp found
    cases step with
    | leaf own =>
      cases found
      obtain rfl : own = .plain fragment := leaf
      -- A step that ends in a fragment looks it up by the type, or knows nothing.
      unfold ShapeUse.step at stepped
      split at stepped
      · cases stepped
      · obtain ⟨values, -, stepped⟩ := Fault.bind_ok_iff.mp stepped
        split at stepped <;> cases stepped
        exact Elm.Fragment.isBasic_getD "string"
      · cases stepped
      · cases stepped
      · cases stepped
        exact Elm.Fragment.isBasic_getD _
      · obtain ⟨_, _, stepped⟩ := Fault.bind_ok_iff.mp stepped
        cases stepped
        exact .inl rfl
    | link link =>
      obtain ⟨next, -, found⟩ := Fault.bind_ok_iff.mp found
      obtain ⟨rest, onward, made⟩ := Fault.bind_ok_iff.mp found
      cases made
      exact ih onward leaf

/-- Every member of a record refers to a target of the outline or to something basic. -/
theorem Outlines.encloses {use : ShapeUse} {category : Category} {record : Record}
    {targets : List ShapeUse} (outline : model.Outlines use category record targets)
    {member : Member} (listed : member ∈ record.members) :
    ∃ leaf : Leaf, member.value.Encloses leaf.fragment ∧
      (leaf.fragment.IsBasic ∨ ∃ target ∈ targets, leaf = .named target) := by
  obtain ⟨required, entries, chains, -, -, found, rfl, rfl⟩ := outline
  induction found with
  | nil => cases listed
  | @cons entry chain entries chains followed _ ih =>
    rcases List.mem_cons.mp listed with rfl | listed
    · refine ⟨chain.leaf, ?_, ?_⟩
      · change (chain.member required entry.1).value.Encloses chain.leaf.fragment
        unfold Chain.member
        split
        · exact chain.encloses_leaf
        · exact chain.encloses_leaf.optional
      · cases leaf : chain.leaf with
        | plain fragment => exact .inl (isBasic_of_chain followed leaf)
        | named target =>
          refine .inr ⟨target, ?_, rfl⟩
          rw [List.filterMap_cons, Chain.target?, leaf]
          exact List.mem_cons_self
    -- A member further back refers to a target further back.
    · obtain ⟨leaf, encloses, refers⟩ := ih listed
      refine ⟨leaf, encloses, refers.imp_right ?_⟩
      rintro ⟨target, here, same⟩
      rw [List.filterMap_cons]
      split
      · exact ⟨target, here, same⟩
      · exact ⟨target, List.mem_cons_of_mem _ here, same⟩

/-! ## Closed modules -/

/-- The names of all shapes are alphanumeric. -/
def Alphanumeric (model : Model) : Prop :=
  ∀ name entry, model.shape (.text name) = .ok (name, entry) → Elm.IsAlphanumeric name

/-- No shape and no reference has the type `named`. -/
def NeverNamed (model : Model) : Prop :=
  (∀ name entry, model.shape (.text name) = .ok (name, entry) →
    entry.get? "type" ≠ some (.text "named")) ∧
  ∀ reference, model.Mentions reference → reference.get? "type" ≠ some (.text "named")

theorem Alphanumeric.use (alphanumeric : model.Alphanumeric) {use : ShapeUse}
    (uses : model.Uses use) : Elm.IsAlphanumeric use.name := by
  obtain ⟨reference, _, stands⟩ := uses
  obtain ⟨fields, entries, rfl, shape, _⟩ := use_ok stands
  exact alphanumeric use.name _ shape

/-- If nothing has the type `named`, no slot is kept in reserve. -/
theorem NeverNamed.handler (unnamed : model.NeverNamed) {use : ShapeUse}
    (uses : model.Uses use) : use.handler ≠ .keep := by
  obtain ⟨reference, mentions, stands⟩ := uses
  obtain ⟨fields, entries, rfl, shape, -, get?⟩ := use_ok stands
  intro keep
  have typed : use.get? "type" = some (.text "named") := by
    unfold ShapeUse.handler ShapeUse.type at keep
    cases own : use.get? "type" with
    | none => simp [own] at keep
    | some type =>
      rw [own, Option.getD_some] at keep
      split at keep <;> first | rfl | cases keep
  rw [get? "type" (by decide), Option.or_eq_some_iff] at typed
  rcases typed with own | ⟨-, own⟩
  · exact unnamed.2 _ mentions own
  · exact unnamed.1 _ _ shape own

/-- Nothing has the type `named` if no shape has it and no listed reference has a type. -/
theorem NeverNamed.of_listed {shapes : List (String × Value)} (own : model.shapes = .object shapes)
    (others : ∀ shape ∈ shapes, shape.2.get? "type" ≠ some (.text "named"))
    (flat : ∀ reference ∈ model.listed, reference.references = [])
    (plain : ∀ reference ∈ model.listed, reference.get? "type" = none) : model.NeverNamed := by
  refine ⟨fun name entry found => ?_, fun reference mentions => ?_⟩
  · obtain ⟨_, same, listed⟩ := shape_mem found
    cases own.symm.trans same
    exact others _ listed
  · rw [plain reference (mentions.mem_listed flat)]
    nofun

theorem Alphanumeric.of_shapes {shapes : List (String × Value)}
    (own : model.shapes = .object shapes)
    (all : ∀ shape ∈ shapes, Elm.IsAlphanumeric shape.1) : model.Alphanumeric := by
  intro name entry found
  obtain ⟨_, same, listed⟩ := shape_mem found
  cases own.symm.trans same
  exact all _ listed

/-- If no slot is kept in reserve, settled slots are filled. -/
theorem Settled.filled {table : SlotTable} {name : String} (settled : model.Settled table name)
    (unnamed : model.NeverNamed) :
    ∃ definition, table.find? name = some (.filled definition) := by
  obtain ⟨use, slot, uses, rfl, here, settles⟩ := settled
  cases settles with
  | record => exact ⟨_, here⟩
  | union => exact ⟨_, here⟩
  | keep handler => exact absurd handler (unnamed.handler uses)

/-- A generated module defines everything that the members of its records refer to. -/
theorem generate_defines {region : Value} {generated : GeneratedModule}
    (alphanumeric : model.Alphanumeric) (unnamed : model.NeverNamed)
    (run : model.generate region = .ok generated) {record : Record} {member : Member}
    (made : .record record ∈ generated.definitions) (listed : member ∈ record.members) :
    member.value.innermost.IsBasic ∨ generated.Defines member.value.innermost := by
  obtain ⟨service, -, run⟩ := Fault.bind_ok_iff.mp run
  obtain ⟨definitions, collected, same⟩ := Fault.bind_ok_iff.mp run
  cases same
  obtain ⟨table, run⟩ : ∃ table, model.definitions.on .empty = (.ok definitions, table) :=
    ⟨_, Prod.ext collected rfl⟩
  obtain ⟨distinct, settled⟩ := settled_of_definitions run
  obtain ⟨-, rfl⟩ := walk_of_definitions run
  have found {name : String} {definition : Definition}
      (held : table.find? name = some (.filled definition)) : definition ∈ table.definitions :=
    List.mem_map.mpr ⟨(name, definition), (SlotTable.mem_filled_iff distinct).mpr held, rfl⟩
  -- The record was made for some use, and its targets have slots at the end.
  obtain ⟨⟨name, _⟩, here, rfl⟩ := List.mem_map.mp made
  have held := (SlotTable.mem_filled_iff distinct).mp here
  obtain ⟨use, _, targets, uses, rfl, -, outline, inside⟩ :=
    (settled name (SlotTable.mem_names_of_find? held)).of_record held
  obtain ⟨leaf, encloses, basic | ⟨target, targeted, rfl⟩⟩ := outline.encloses listed
  · obtain ⟨type, decoder⟩ := basic.isWord
    rw [encloses.innermost_eq type decoder]
    exact .inl basic
  · have name := alphanumeric.use (outline.targets uses targeted).1
    obtain ⟨type, decoder⟩ := Elm.isWord_named name
    rw [encloses.innermost_eq type decoder]
    -- The slot of the target is filled, whichever use it was filled for.
    have slot := settled target.name (inside target targeted)
    obtain ⟨definition, filled⟩ := slot.filled unnamed
    have typed : definition.type = Elm.typeName target.name := slot.type filled
    obtain ⟨source, rendered, line⟩ := Elm.Definition.firstLine_render
      (typed ▸ Elm.isAlphanumeric_typeName name)
    rw [typed] at line
    exact .inr ⟨definition, found filled, typed, source, rendered, line⟩

/-- Books and pages that refer to each other, with traits on the way. -/
def books : Model where
  metadata := .object [
    ("endpointPrefix", .text "books"), ("apiVersion", .text "2020-01-01"),
    ("protocol", .text "json"), ("signatureVersion", .text "v4")]
  operations := some (.object [("Read", .object [("output", .named "book")])])
  shapes := .object [
    ("book", .object [("type", .text "structure"), ("required", .list [.text "Pages"]),
      ("members", .object [
        ("Pages", .object [("shape", .text "pages"), ("required", .list [])]),
        ("Title", .object [("shape", .text "text"), ("enum", .list [.text "none"])])])]),
    ("pages", .object [("type", .text "list"), ("member", .named "page")]),
    ("page", .object [("type", .text "structure"),
      ("members", .object [("Of", .named "book"), ("Index", .named "pages")])]),
    ("text", .object [("type", .text "string")])]

theorem generate_books :
    ∃ generated, books.Alphanumeric ∧ books.NeverNamed ∧ books.generate .null = .ok generated ∧
      generated.definitions.map Definition.type = ["Book", "Page", "Text"] ∧
      ∀ record member, .record record ∈ generated.definitions → member ∈ record.members →
        member.value.innermost.IsBasic ∨ generated.Defines member.value.innermost := by
  have alphanumeric : books.Alphanumeric := .of_shapes rfl (by decide)
  have unnamed : books.NeverNamed :=
    .of_listed rfl (by simp [Value.get?]) (by decide) (by decide)
  obtain ⟨generated, run, types⟩ : ∃ generated, books.generate .null = .ok generated ∧
      generated.definitions.map Definition.type = ["Book", "Page", "Text"] := ⟨_, rfl, rfl⟩
  exact ⟨generated, alphanumeric, unnamed, run, types, fun _ _ made listed =>
    generate_defines alphanumeric unnamed run made listed⟩

end Model

end ElmBindgen
