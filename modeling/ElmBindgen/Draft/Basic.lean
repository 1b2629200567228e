import ElmBindgen.Value.Access

/-!
# Drafts

A draft is a shape put together by hand. Its fields are untyped values, of which
nothing is checked until the draft is rendered; only the arity of variants and
members is checked when it is made.

## Main definitions

* `Draft`: shapes with untyped fields
* `Draft.union?`, `Draft.record?`: drafts from untyped variants and members
* `Draft.field?`: the fields of a draft by name
-/

namespace ElmBindgen

/-- A variant with untyped fields. -/
structure DraftVariant where
  name : Value
  wire : Value

/-- A member with untyped fields. -/
structure DraftMember where
  key : Value
  required : Value
  type : Value
  decoder : Value

/-- A shape with untyped fields. Of a bare draft only the type is known; an object
has exactly the given fields; a raw value has entries, if any, but no fields. -/
inductive Draft where
  | nothing (type : Value)
  | union (type : Value) (variants : List DraftVariant)
  | record (type category : Value) (members : List DraftMember)
  | bare (type : Value)
  | object (fields : List (String × Value))
  | raw (value : Value)

namespace DraftVariant

/-- A variant from its two parts. -/
def ofValue (value : Value) : Except Fault DraftVariant := do
  match ← value.elements with
  | [name, wire] => return ⟨name, wire⟩
  | _ => throw .wrongType

/-- The parts of a variant. -/
def toValue (variant : DraftVariant) : Value := .list [variant.name, variant.wire]

end DraftVariant

namespace DraftMember

/-- A member from its key, whether it is required, and its type and decoder. -/
def ofValue (value : Value) : Except Fault DraftMember := do
  match ← value.elements with
  | [key, required, fragment] =>
    match ← fragment.elements with
    | [type, decoder] => return ⟨key, required, type, decoder⟩
    | _ => throw .wrongType
  | _ => throw .wrongLength

/-- The parts of a member. -/
def toValue (member : DraftMember) : Value :=
  .list [member.key, member.required, .list [member.type, member.decoder]]

end DraftMember

namespace Draft

/-- A field that has to be given. -/
def given (field : Option Value) : Except Fault Value :=
  match field with
  | some value => .ok value
  | none => .error .wrongType

/-- A union from its type and its variants. -/
def union? (type variants : Option Value) : Except Fault Draft := do
  let type ← given type
  let variants ← (variants.getD (.list [])).elements
  return .union type (← variants.mapM DraftVariant.ofValue)

/-- A record from its type, its category and its members. -/
def record? (type category members : Option Value) : Except Fault Draft := do
  let type ← given type
  let members ← (members.getD (.list [])).elements
  return .record type (category.getD (.text "other")) (← members.mapM DraftMember.ofValue)

/-- A shape of which only the type is known. -/
def bare? (type : Option Value) : Except Fault Draft := do
  return .bare (← given type)

/-- The fields of a draft by name. -/
def fields : Draft → List (String × Value)
  | nothing type => [("kind", .text "nothing"), ("type", type)]
  | union type variants =>
    [("kind", .text "enum"), ("type", type),
      ("variants", .list (variants.map DraftVariant.toValue))]
  | record type category members =>
    [("kind", .text "structure"), ("type", type), ("category", category),
      ("members", .list (members.map DraftMember.toValue))]
  | bare type => [("kind", .text "shape"), ("type", type)]
  | object fields => fields
  | raw _ => []

/-- The field of a draft with a name. -/
def field? (draft : Draft) (name : String) : Option Value := draft.fields.lookup name

/-- The field of a draft with a name, which has to be there. -/
def field (draft : Draft) (name : String) : Except Fault Value :=
  match draft.field? name with
  | some value => .ok value
  | none => .error .missingAttribute

/-- The kind of a draft. -/
def kind (draft : Draft) : Value := (draft.field? "kind").getD .null

end Draft

end ElmBindgen
