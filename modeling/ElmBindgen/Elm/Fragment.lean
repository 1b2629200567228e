import ElmBindgen.Elm.Name

/-!
# Fragments

A member of a record has a type and a decoder, both given as source text. The
fragments of lists, maps and optional members are built from those of what they
hold.

## Main definitions

* `Elm.Fragment`: a type and a decoder
* `Elm.Fragment.primitive?`: the fragments of the primitive types
* `Elm.Fragment.named`: the fragment of a type with a definition
* `Elm.Fragment.list`, `Elm.Fragment.dict`, `Elm.Fragment.optional`: the wrappers
-/

namespace ElmBindgen.Elm

/-- A type and a decoder for it, as source text. -/
structure Fragment where
  type : String
  decoder : String
  deriving DecidableEq, Repr

/-- A text in parentheses, unless it has no blank or is in parentheses. -/
def parenthesize (fragment : String) : String :=
  let cs := fragment.toList
  if ' ' ∈ cs ∧ cs.head? ≠ some '(' then "(" ++ fragment ++ ")" else fragment

namespace Fragment

/-- The fragment of a primitive type. Timestamps and blobs arrive as strings and
are left to the caller. -/
def primitive? : String → Option Fragment
  | "string" => some ⟨"String", "JD.string"⟩
  | "character" => some ⟨"String", "JD.string"⟩
  | "integer" => some ⟨"Int", "JD.int"⟩
  | "long" => some ⟨"Int", "JD.int"⟩
  | "float" => some ⟨"Float", "JD.float"⟩
  | "double" => some ⟨"Float", "JD.float"⟩
  | "boolean" => some ⟨"Bool", "JD.bool"⟩
  | "timestamp" => some ⟨"String", "JD.string"⟩
  | "blob" => some ⟨"String", "JD.string"⟩
  | _ => none

/-- The fragment of a value of which nothing is known. -/
def untyped : Fragment := ⟨"JD.Value", "JD.value"⟩

/-- The fragment that refers to the definition of a shape. -/
def named (shapeName : String) : Fragment :=
  ⟨typeName shapeName, decoderName (typeName shapeName)⟩

/-- The fragment of a list. -/
def list (item : Fragment) : Fragment :=
  ⟨"List " ++ parenthesize item.type, "(JD.list " ++ item.decoder ++ ")"⟩

/-- The fragment of a map from strings. -/
def dict (value : Fragment) : Fragment :=
  ⟨"Dict String " ++ parenthesize value.type, "(JD.dict " ++ value.decoder ++ ")"⟩

/-- The fragment of a member that may be missing. -/
def optional (value : Fragment) : Fragment :=
  ⟨"Maybe " ++ parenthesize value.type, "(JD.nullable " ++ value.decoder ++ ") Nothing"⟩

end Fragment

end ElmBindgen.Elm
