import ElmBindgen.EnumTable.Item

/-!
# Faults

The causes for which an operation gives no result, and the wording of those that
carry a message.

## Main definitions

* `Fault`: the causes
* `Fault.message`: what is reported about a cause
-/

namespace ElmBindgen

/-- Why an operation gave no result.

* A shape of a kind that cannot be rendered; an item that occurs twice in an
  enumeration table, or not at all; a name under which no host rule is registered;
  a protocol or a signature version that is not known.
* An operation or a shape that the model does not have; an entry that has to be
  there; a service or a document that the catalogue does not hold; an assignment
  to a field of a descriptor.
* A value of a type on which the operation is not defined, without the attribute
  that was asked for, or with the wrong number of elements; a position beyond the
  end; a host rule that answers nothing; a shape without a type; a reference that
  names no shape; a use of something that a template could not find; lists and maps
  nested without end. -/
inductive Fault where
  | unknownShapeKind (kind : Value)
  | duplicateEnumValue (item : Item)
  | unknownEnumValue (item : Item)
  | unknownProvider (name : Value)
  | unsupportedProtocol (protocol : Value)
  | unsupportedSigner (version : Value)
  | unknownOperation (name : Value)
  | unknownShape (name : Value)
  | missingKey (key : String)
  | unknownService (name : Value) (known : List String)
  | dataNotFound (path : String)
  | frozenField (field : String)
  | wrongType
  | missingAttribute
  | wrongLength
  | outOfRange
  | notImplemented
  | untypedShape
  | namelessReference
  | undefinedName
  | endlessNesting

namespace Fault

/-- What is reported about a cause; some causes carry no message. -/
def message : Fault → Option String
  | unknownShapeKind kind =>
    some ("UnknownShapeKind: Cannot render shape of kind " ++ kind.literal ++
      "; expected one of nothing, enum, structure")
  | duplicateEnumValue item =>
    some ("DuplicateEnumValue: Value " ++ item.literal ++
      " appears more than once in the enum table")
  | unknownEnumValue item =>
    some ("UnknownEnumValue: Value " ++ item.literal ++ " is not present in the enum table")
  | unknownProvider name =>
    some ("UnknownProvider: No endpoint provider registered as '" ++ name.display ++ "'")
  | unsupportedProtocol protocol =>
    some ("UnsupportedProtocol: Service protocol " ++ protocol.literal ++
      " is not supported by the generator")
  | unsupportedSigner version =>
    some ("UnsupportedSigner: Signature version " ++ version.literal ++
      " is not supported by the generator")
  | unknownOperation name => some name.display
  | unknownShape name => some name.display
  | missingKey key => some key
  | unknownService name known =>
    some ("Unknown service: '" ++ name.display ++ "'. Valid service names are: " ++
      ", ".intercalate known)
  | dataNotFound path => some ("Unable to load data for: " ++ path)
  | frozenField field => some ("cannot assign to field " ++ Text.literal field)
  | _ => none

end Fault

end ElmBindgen
