import ElmBindgen.Elm.Definition
import ElmBindgen.Elm.Quoted
import ElmBindgen.Elm.Template

/-!
# Rendering definitions

The source text of the types and decoders that a module defines, and the names
under which it exports them.

## Main definitions

* `Elm.Member.typeLine`, `Elm.Member.decoderStep`: the texts of a member
* `Elm.Union.typeSource`, `Elm.Union.decoderSource`, `Elm.Union.docSource`
* `Elm.Record.typeSource`, `Elm.Record.decoderSource`
* `Elm.Definition.render`, `Elm.Payload.render`: everything about a definition
-/

namespace ElmBindgen.Elm

namespace Member

/-- The field of a record type for a member. -/
def typeLine (member : Member) : String := member.key ++ " : " ++ member.value.type

/-- The step of a record decoder for a member. -/
def decoderStep (member : Member) : String :=
  (if member.required then "JDP.required " else "JDP.optional ") ++
    quote member.key ++ " " ++ member.value.decoder

end Member

namespace Union

/-- The definition of the type. -/
def typeSource (union : Union) : String := unionType union.type (union.variants.map (·.name))

/-- The definition of the decoder. -/
def decoderSource (union : Union) : String :=
  unionDecoder (decoderName union.type) union.type
    (union.variants.map fun variant => (quote variant.wire, variant.name))

/-- The documentation of the type. -/
def docSource (union : Union) : String :=
  unionDoc union.type (union.variants.map fun variant => (variant.name, variant.wire))

end Union

namespace Record

/-- The definition of the type. -/
def typeSource (record : Record) : String :=
  recordType record.type (record.members.map Member.typeLine)

/-- The definition of the decoder. -/
def decoderSource (record : Record) : String :=
  recordDecoder (decoderName record.type) record.type (record.members.map Member.decoderStep)

end Record

/-- What is generated for a shape: the name that it is exported under and its two
definitions, as far as there are any. -/
structure Rendered where
  exposeAs : Option String
  typeDef : Option String
  decoderDef : Option String
  deriving DecidableEq, Repr

namespace Rendered

/-- Nothing is generated. -/
def nothing : Rendered := ⟨none, none, none⟩

end Rendered

namespace Union

/-- What is generated for a union: it is exported with its constructors. -/
def render (union : Union) : Rendered :=
  ⟨some (union.type ++ "(..)"), some union.typeSource, some union.decoderSource⟩

end Union

namespace Record

/-- What is generated for a record: request types stay private to the module. -/
def render (record : Record) : Rendered :=
  ⟨if record.category = .request then none else some record.type,
    some record.typeSource, some record.decoderSource⟩

end Record

namespace Definition

/-- What is generated for a definition. -/
def render : Definition → Rendered
  | union u => u.render
  | record r => r.render

end Definition

namespace Payload

/-- What is generated for a payload. -/
def render : Payload → Rendered
  | nothing _ => .nothing
  | defined definition => definition.render

end Payload

end ElmBindgen.Elm
