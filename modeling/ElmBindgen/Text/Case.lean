import ElmBindgen.Text.CaseTable

/-!
# Case mapping

Full case mapping of text, in which one character may become several. Only the
Greek capital sigma looks at its neighbours: it becomes a final sigma at the end
of a word.

## Main definitions

* `upperChar`, `lowerChar`: the mappings of a single character
* `upper`, `lower`: the mappings of a text
-/

namespace ElmBindgen.Text

/-- The image of a character outside ASCII under a case mapping given by runs
and expansions. -/
def mapCase (runs : List CaseRun) (expansions : List (Nat × List Nat)) (c : Char) : List Char :=
  match expansions.lookup c.toNat with
  | some codes => codes.map Char.ofNat
  | none =>
    match runs.find? (·.contains c.toNat) with
    | some run => [Char.ofNat (c.toNat + run.offset).toNat]
    | none => [c]

/-- Upper case of one character. -/
def upperChar (c : Char) : List Char :=
  if c.toNat < 0x80 then [c.toUpper] else mapCase upperRuns upperExpansions c

/-- Lower case of one character on its own. -/
def lowerChar (c : Char) : List Char :=
  if c.toNat < 0x80 then [c.toLower] else mapCase lowerRuns lowerExpansions c

/-- Upper case of a text. -/
def upper (cs : List Char) : List Char := cs.flatMap upperChar

/-- Whether a character is cased and not case-ignorable. -/
def isCased (c : Char) : Bool := inRanges casedRanges c.toNat

/-- Whether a character is skipped in looking for a cased neighbour. -/
def isCaseIgnorable (c : Char) : Bool := inRanges caseIgnorableRanges c.toNat

/-- Whether the first character that is not case-ignorable is cased. -/
def startsCased (cs : List Char) : Bool :=
  match cs.dropWhile isCaseIgnorable with
  | [] => false
  | c :: _ => isCased c

/-- Lower case of what follows; `afterCased` tells whether the last character
before it that is not case-ignorable is cased. -/
def lowerAfter (afterCased : Bool) : List Char → List Char
  | [] => []
  | c :: rest =>
    let image :=
      if c = 'Σ' then [if afterCased && !startsCased rest then 'ς' else 'σ'] else lowerChar c
    image ++ lowerAfter (if isCaseIgnorable c then afterCased else isCased c) rest

/-- Lower case of a text. -/
def lower (cs : List Char) : List Char := lowerAfter false cs

end ElmBindgen.Text
