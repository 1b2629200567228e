/-!
# Elm string literals

A string literal stands in double quotes; a double quote or a backslash inside
it is preceded by a backslash.

## Main definitions

* `Elm.escape`: the inside of a literal
* `Elm.quote`: the literal of a text
-/

namespace ElmBindgen.Elm

/-- One character inside a literal. -/
def escapeChar (c : Char) : List Char :=
  if c = '\\' ∨ c = '"' then ['\\', c] else [c]

/-- The inside of a literal. -/
def escape (cs : List Char) : List Char := cs.flatMap escapeChar

/-- The literal of a text. -/
def quote (s : String) : String :=
  String.ofList ('"' :: escape s.toList ++ ['"'])

end ElmBindgen.Elm
