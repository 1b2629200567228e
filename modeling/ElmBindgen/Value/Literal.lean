import ElmBindgen.Text.Printable
import ElmBindgen.Value

/-!
# Written forms of values

A value is written in two ways. Its literal form appears in messages and inside
lists and objects; there a text stands in quotes and is escaped. Its display
form appears in generated source and differs from the literal only for a text,
which is displayed as it is.

## Main definitions

* `Text.literal`: a text in quotes
* `Value.literal`: the literal form of a value
* `Value.display`: the display form of a value
-/

namespace ElmBindgen

namespace Text

/-- A number in lower-case hexadecimal with at least `width` digits. -/
def hex (width n : Nat) : List Char :=
  let digits := Nat.toDigits 16 n
  List.replicate (width - digits.length) '0' ++ digits

/-- One character of a literal in the given quotes. -/
def literalChar (quote c : Char) : List Char :=
  if c = '\\' ∨ c = quote then ['\\', c]
  else if c = '\n' then ['\\', 'n']
  else if c = '\r' then ['\\', 'r']
  else if c = '\t' then ['\\', 't']
  else if isPrintable c then [c]
  else if c.toNat < 0x100 then '\\' :: 'x' :: hex 2 c.toNat
  else if c.toNat < 0x10000 then '\\' :: 'u' :: hex 4 c.toNat
  else '\\' :: 'U' :: hex 8 c.toNat

/-- The quotes of a literal: single ones, unless the text has a single quote and
no double quote. -/
def literalQuote (cs : List Char) : Char :=
  if '\'' ∈ cs ∧ '"' ∉ cs then '"' else '\''

/-- A text in quotes, with escapes for all that is not printable. -/
def literal (s : String) : String :=
  let quote := literalQuote s.toList
  String.ofList (quote :: s.toList.flatMap (literalChar quote) ++ [quote])

end Text

namespace Value

mutual

/-- The literal form of a value. -/
def literal : Value → String
  | null => "None"
  | bool b => if b then "True" else "False"
  | int n => toString n
  | float x => x.text
  | text s => Text.literal s
  | list items => "[" ++ ", ".intercalate (literalItems items) ++ "]"
  | object fields => "\x7b" ++ ", ".intercalate (literalFields fields) ++ "\x7d"

/-- The literal forms of the items of a list. -/
def literalItems : List Value → List String
  | [] => []
  | item :: rest => literal item :: literalItems rest

/-- The literal forms of the entries of an object. -/
def literalFields : List (String × Value) → List String
  | [] => []
  | (key, value) :: rest => (Text.literal key ++ ": " ++ literal value) :: literalFields rest

end

/-- The display form of a value. -/
def display : Value → String
  | text s => s
  | value => literal value

end Value

end ElmBindgen
