import ElmBindgen.Text.Case

/-!
# Names in generated modules

The name of a type, of its decoder and of the constructors of a union type.

## Main definitions

* `Elm.typeName`: the type of a shape
* `Elm.decoderName`: the decoder of a type
* `Elm.constructorName`: the constructor for a wire string
-/

namespace ElmBindgen.Elm

/-- A text with its first character in upper case. -/
def capitalize : List Char → List Char
  | [] => []
  | c :: rest => Text.upperChar c ++ rest

/-- A text with its first character in lower case. -/
def uncapitalize : List Char → List Char
  | [] => []
  | c :: rest => Text.lowerChar c ++ rest

/-- The type of a shape: its name with the first character in upper case. -/
def typeName (shapeName : String) : String :=
  String.ofList (capitalize shapeName.toList)

/-- The decoder of a type. -/
def decoderName (type : String) : String :=
  String.ofList (uncapitalize type.toList ++ "Decoder".toList)

/-- Whether a character is an ASCII letter or digit. -/
def isWordChar (c : Char) : Bool := c.isAlphanum

/-- The pieces of a text between single separators, the empty ones included.
Everything but ASCII letters and digits separates. -/
def pieces : List Char → List (List Char)
  | [] => [[]]
  | c :: rest =>
    if isWordChar c then
      match pieces rest with
      | [] => [[c]]
      | piece :: others => (c :: piece) :: others
    else [] :: pieces rest

/-- The words of a text: its maximal runs of ASCII letters and digits. -/
def words (cs : List Char) : List (List Char) :=
  (pieces cs).filter (!·.isEmpty)

/-- What distinguishes the constructor for a wire string: its words, each with
the first character in upper case. -/
def constructorSuffix (wire : String) : List Char :=
  (words wire.toList).flatMap capitalize

/-- The constructor for a wire string. The type comes first, which keeps the
constructors of different types apart. -/
def constructorName (type wire : String) : String :=
  String.ofList (type.toList ++ constructorSuffix wire)

end ElmBindgen.Elm
