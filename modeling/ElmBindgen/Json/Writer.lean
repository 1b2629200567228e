import ElmBindgen.Value.Literal

/-!
# Writing documents

A value is written on one line in ASCII, with no blanks between tokens.

## Main definitions

* `Json.quoted`: a text in quotes
* `Json.write`: the document of a value
-/

namespace ElmBindgen.Json

/-- A character of a quoted text. Characters beyond the basic plane are written
as their two surrogates. -/
def quotedChar (c : Char) : List Char :=
  let code := c.toNat
  if c = '"' ∨ c = '\\' then ['\\', c]
  else if 0x20 ≤ code ∧ code < 0x7f then [c]
  else if code < 0x10000 then '\\' :: 'u' :: Text.hex 4 code
  else
    let offset := code - 0x10000
    '\\' :: 'u' :: Text.hex 4 (0xd800 + offset / 0x400) ++
      '\\' :: 'u' :: Text.hex 4 (0xdc00 + offset % 0x400)

/-- A text in quotes. -/
def quoted (s : String) : String :=
  String.ofList ('"' :: s.toList.flatMap quotedChar ++ ['"'])

/-- A double; those that are not finite are words. -/
def writeDouble : Binary64 → String
  | .finite x => x.text
  | .infinite negative => if negative then "-Infinity" else "Infinity"
  | .nan _ => "NaN"

mutual

/-- The document of a value. -/
def write : Value → String
  | .null => "null"
  | .bool b => if b then "true" else "false"
  | .int n => toString n
  | .float x => writeDouble x
  | .text s => quoted s
  | .list items => "[" ++ ",".intercalate (writeItems items) ++ "]"
  | .object fields => "\x7b" ++ ",".intercalate (writeFields fields) ++ "\x7d"

/-- The documents of the items of a list. -/
def writeItems : List Value → List String
  | [] => []
  | item :: rest => write item :: writeItems rest

/-- The documents of the entries of an object. -/
def writeFields : List (String × Value) → List String
  | [] => []
  | (key, value) :: rest => (quoted key ++ ":" ++ write value) :: writeFields rest

end

end ElmBindgen.Json
