import ElmBindgen.Elm.Fragment

/-!
# Definitions

The types that a generated module defines: unions for enumerations and records
for structures.

## Main definitions

* `Elm.Union`: a union type and its wire strings
* `Elm.Record`: a record type and its members
* `Elm.Definition`: either of them
* `Elm.Payload`: what an operation takes or returns
-/

namespace ElmBindgen.Elm

/-- How a shape is reached: as the input of an operation, as its output, or from
a member. -/
inductive Category where
  | request
  | response
  | other
  deriving DecidableEq, Repr

namespace Category

/-- The word for a category. -/
def word : Category → String
  | request => "request"
  | response => "response"
  | other => "other"

end Category

/-- A constructor of a union type and the string that it is sent as. -/
structure Variant where
  name : String
  wire : String
  deriving DecidableEq, Repr

/-- A union type. -/
structure Union where
  type : String
  variants : List Variant
  deriving DecidableEq, Repr

/-- A member of a record type. -/
structure Member where
  key : String
  required : Bool
  value : Fragment
  deriving DecidableEq, Repr

/-- A record type. -/
structure Record where
  type : String
  category : Category
  members : List Member
  deriving DecidableEq, Repr

/-- A type that a generated module defines. -/
inductive Definition where
  | union (u : Union)
  | record (r : Record)
  deriving DecidableEq, Repr

namespace Definition

/-- The type that a definition introduces. -/
def type : Definition → String
  | union u => u.type
  | record r => r.type

/-- The definition with the category of a record changed. Only a record that was
reached as a request changes, and only to a category that is not a request. -/
def promote (category : Category) : Definition → Definition
  | record r =>
    if r.category = .request ∧ category ≠ .request then record { r with category := category }
    else record r
  | union u => union u

end Definition

/-- What an operation takes or returns: nothing that is generated, or a
definition. A payload without a definition keeps the type of its shape. -/
inductive Payload where
  | nothing (type : Option String)
  | defined (definition : Definition)
  deriving DecidableEq, Repr

end ElmBindgen.Elm
