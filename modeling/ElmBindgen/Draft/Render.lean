import ElmBindgen.Draft.Basic
import ElmBindgen.Elm.Render

/-!
# Rendering drafts

A draft is rendered by the same templates as a definition. A template writes any
value in its display form and nothing for a field that is missing; the names and
literals that are computed from a field insist on a text.

## Main definitions

* `Value.decoderName`, `Value.typeName`, `Value.quoted`: names and literals
* `DraftMember.typeLine`, `DraftMember.decoderStep`: the texts of a member
* `Draft.unionType`, `Draft.unionDecoder`, `Draft.unionDoc`
* `Draft.recordType`, `Draft.recordDecoder`
* `Draft.render`: everything about a draft
* `RenderedDraft.read`: what is read from a rendered draft by name
-/

namespace ElmBindgen

namespace Value

/-- The characters of a text of which a part is taken. A list has parts too, but
no case. -/
def sliced : Value → Except Fault String
  | text s => .ok s
  | list _ => .error .missingAttribute
  | _ => .error .wrongType

/-- The characters of a text that is matched or joined. -/
def joined : Value → Except Fault String
  | text s => .ok s
  | _ => .error .wrongType

/-- The decoder of a type. -/
def decoderName (type : Value) : Except Fault String := do
  return Elm.decoderName (← type.sliced)

/-- The type of a shape. -/
def typeName (shapeName : Value) : Except Fault String := do
  return Elm.typeName (← shapeName.sliced)

/-- The constructor for a wire string. -/
def constructorName (type wire : Value) : Except Fault String := do
  let wire ← wire.joined
  return Elm.constructorName (← type.joined) wire

/-- The literal of a text. -/
def quoted (value : Value) : Except Fault String := do
  return Elm.quote (← value.string)

end Value

namespace DraftMember

/-- The field of a record type for a member. -/
def typeLine (member : DraftMember) : String :=
  member.key.display ++ " : " ++ member.type.display

/-- The step of a record decoder for a member. -/
def decoderStep (member : DraftMember) : Except Fault String := do
  let literal ← member.key.quoted
  let decoder ← member.decoder.joined
  return (if member.required.isTrue then "JDP.required " else "JDP.optional ") ++
    literal ++ " " ++ decoder

end DraftMember

/-- The text that a member contributes to a record. -/
inductive MemberText where
  | typeLine
  | decoderStep
  | key
  | valueType
  deriving DecidableEq, Repr

namespace MemberText

/-- The text of a member. -/
def of (member : DraftMember) : MemberText → Except Fault String
  | typeLine => .ok member.typeLine
  | decoderStep => member.decoderStep
  | key => .ok member.key.display
  | valueType => .ok member.type.display

end MemberText

namespace Draft

/-! ## What templates find -/

/-- What a template finds under a name: a field, or an entry of a raw value. -/
def find? (draft : Draft) (name : String) : Option Value :=
  match draft with
  | raw value => value.get? name
  | draft => draft.field? name

/-- What a template writes for the type. -/
def typeText (draft : Draft) : String := ((draft.find? "type").map Value.display).getD ""

/-- What a template finds in a variant. -/
structure FoundVariant where
  name : Option Value
  wire : Option Value

/-- The variants that a template goes through. -/
def foundVariants (draft : Draft) : Except Fault (List FoundVariant) :=
  match draft with
  | union _ variants => .ok (variants.map fun variant => ⟨some variant.name, some variant.wire⟩)
  | draft =>
    match draft.find? "variants" with
    | none => .ok []
    | some variants => do
      return (← variants.elements).map fun variant => ⟨variant.get? "name", variant.get? "wire"⟩

/-- What a template writes for something it may not have found. -/
def shown (found : Option Value) : String := (found.map Value.display).getD ""

/-- The literal of something that a template may not have found. -/
def quotedWire (found : Option Value) : Except Fault String :=
  match found with
  | some value => value.quoted
  | none => .error .undefinedName

/-! ## Sources -/

/-- The definition of a union type. -/
def unionType (draft : Draft) : Except Fault String := do
  return Elm.unionType draft.typeText
    ((← draft.foundVariants).map fun variant => shown variant.name)

/-- The decoder of a union type. -/
def unionDecoder (draft : Draft) : Except Fault String := do
  let decoder ← (← draft.field "type").decoderName
  let variants ← draft.foundVariants
  let branches ← variants.mapM fun variant => do
    return (← quotedWire variant.wire, shown variant.name)
  return Elm.unionDecoder decoder draft.typeText branches

/-- The documentation of a union type. -/
def unionDoc (draft : Draft) : Except Fault String := do
  return Elm.unionDoc draft.typeText
    ((← draft.foundVariants).map fun variant => (shown variant.name, shown variant.wire))

/-- The texts of the members. Only the members of a record have fields, and without
a text to ask them for there can be no members at all. -/
def memberTexts (draft : Draft) : Option MemberText → Except Fault (List String)
  | some text =>
    match draft with
    | record _ _ members => members.mapM text.of
    | draft => do
      match ← (← draft.field "members").elements with
      | [] => return []
      | _ :: _ => throw .missingAttribute
  | none => do
    match ← (← draft.field "members").elements with
    | [] => return []
    | _ :: _ => throw .wrongType

/-- The definition of a record type. -/
def recordType (draft : Draft) (text : Option MemberText) : Except Fault String := do
  return Elm.recordType draft.typeText (← draft.memberTexts text)

/-- The decoder of a record type. -/
def recordDecoder (draft : Draft) (text : Option MemberText) : Except Fault String := do
  let steps ← draft.memberTexts text
  let decoder ← (← draft.field "type").decoderName
  return Elm.recordDecoder decoder draft.typeText steps

/-! ## Rendering by kind -/

/-- What is generated for a draft of a union. -/
def renderUnion (draft : Draft) : Except Fault Elm.Rendered := do
  let type ← draft.field "type"
  let typeDef ← draft.unionType
  let decoderDef ← draft.unionDecoder
  return ⟨some (type.display ++ "(..)"), some typeDef, some decoderDef⟩

/-- What is generated for a draft of a record. -/
def renderRecord (draft : Draft) : Except Fault Elm.Rendered := do
  let category ← draft.field "category"
  let type ← draft.field "type"
  let typeDef ← draft.recordType (some .typeLine)
  let decoderDef ← draft.recordDecoder (some .decoderStep)
  let exposeAs := if category.key? = some (.text "request") then none else some type.display
  return ⟨exposeAs, some typeDef, some decoderDef⟩

/-- What is generated for a draft. The kinds are closed: a draft of any other kind
is refused. -/
def render (draft : Draft) : Except Fault Elm.Rendered := do
  match draft.kind with
  | .text "nothing" =>
    let _ ← draft.field "type"
    return .nothing
  | .text "enum" => draft.renderUnion
  | .text "structure" => draft.renderRecord
  | kind => throw (.unknownShapeKind kind)

end Draft

/-! ## Attributes -/

namespace Elm.Rendered

/-- What is generated, by name. -/
def fields (rendered : Rendered) : List (String × Value) :=
  [("expose_as", .ofText rendered.exposeAs), ("type_def", .ofText rendered.typeDef),
    ("decoder_def", .ofText rendered.decoderDef)]

end Elm.Rendered

/-- A draft with what is generated for it. -/
structure RenderedDraft where
  shape : Draft
  rendered : Elm.Rendered

/-- What is read from a rendered draft under a name: the draft, or a value. -/
inductive Attribute where
  | shape (draft : Draft)
  | value (v : Value)

namespace RenderedDraft

/-- The attribute of a rendered draft with a name. What the rendering does not produce
is read from the draft, except for names that start with two underscores. -/
def read (draft : RenderedDraft) (name : String) : Except Fault Attribute :=
  if name = "shape" then .ok (.shape draft.shape)
  else
    match draft.rendered.fields.lookup name with
    | some value => .ok (.value value)
    | none =>
      if "__".toList.isPrefixOf name.toList then .error .missingAttribute
      else (draft.shape.field name).map .value

end RenderedDraft

end ElmBindgen
