/-!
# Source templates

The source text of a definition, from the texts that it is made of. No template
ends in a newline, whatever the texts end in.

## Main definitions

* `Elm.unionType`, `Elm.unionDecoder`, `Elm.unionDoc`: templates of unions
* `Elm.recordType`, `Elm.recordDecoder`: templates of records
-/

namespace ElmBindgen.Elm

/-- A text without the newlines at its end. -/
def dropNewlines (s : String) : String :=
  String.ofList (s.toList.reverse.dropWhile (· = '\n')).reverse

/-- Texts one after another. -/
def concat (parts : List String) : String := parts.foldr (· ++ ·) ""

/-- Lines that begin with `first`, then with `next`. -/
def itemLines (first next : String) : List String → String
  | [] => ""
  | item :: rest =>
    "    " ++ first ++ " " ++ item ++ "\n" ++
      concat (rest.map fun item => "    " ++ next ++ " " ++ item ++ "\n")

/-- The definition of a union type with the given constructors. -/
def unionType (type : String) (names : List String) : String :=
  dropNewlines ("type " ++ type ++ "\n" ++ itemLines "=" "|" names)

/-- The branch of a decoder for one literal. -/
def decoderBranch (literal name : String) : String :=
  "                    " ++ literal ++ " ->\n" ++
  "                        JD.succeed " ++ name ++ "\n\n"

/-- The decoder of a union type, from pairs of a literal and a constructor. -/
def unionDecoder (decoder type : String) (branches : List (String × String)) : String :=
  dropNewlines (
    decoder ++ " : JD.Decoder " ++ type ++ "\n" ++
    decoder ++ " =\n" ++
    "    JD.string\n" ++
    "        |> JD.andThen\n" ++
    "            (\\str ->\n" ++
    "                case str of\n" ++
    concat (branches.map fun branch => decoderBranch branch.1 branch.2) ++
    "                    _ ->\n" ++
    "                        JD.fail (\"Unknown " ++ type ++ ": \" ++ str)\n" ++
    "            )\n")

/-- The documentation of a union type, from pairs of a constructor and a wire
string. -/
def unionDoc (type : String) (variants : List (String × String)) : String :=
  dropNewlines (
    "\x7b-| The " ++ type ++ " enumeration.\n\n" ++
    concat (variants.map fun variant =>
      "  - `" ++ variant.1 ++ "` is sent as `" ++ variant.2 ++ "`\n") ++
    "\n-\x7d\n")

/-- The definition of a record type with the given fields. -/
def recordType (type : String) (fields : List String) : String :=
  dropNewlines (
    "type alias " ++ type ++ " =\n" ++ itemLines "\x7b" "," fields ++
    (if fields.isEmpty then "    \x7b\x7d\n" else "    \x7d\n"))

/-- The decoder of a record type with the given steps. -/
def recordDecoder (decoder type : String) (steps : List String) : String :=
  dropNewlines (
    decoder ++ " : JD.Decoder " ++ type ++ "\n" ++
    decoder ++ " =\n" ++
    "    JD.succeed " ++ type ++ "\n" ++
    concat (steps.map fun step => "        |> " ++ step ++ "\n"))

end ElmBindgen.Elm
