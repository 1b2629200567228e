import ElmBindgen.Elm.Render
import ElmBindgen.Proofs.Elm.Lines
import ElmBindgen.Proofs.Elm.Literal

/-!
# Reading unions back

The source of a union type lists its constructors, and the source of its decoder has one arm for
each of them, with the literal of a wire string. Both can be read back, whatever stands in the wire
strings: a quote, a backslash or a newline, or what looks like another arm. So the decoder takes a
text to the first constructor that is sent as this text, and fails if there is none.

## Main definitions

* `Elm.readUnionType`: the name of a union type and its constructors
* `Elm.readArms`, `Elm.readUnionDecoder`: the arms of a decoder
* `Elm.runDecoder`: what a decoder makes of a text

## Main results

* `Elm.readArms_branches`: the arms of a decoder give the branches that they were made from
* `Elm.Union.sources_read`: both sources of a union say the same
-/

namespace ElmBindgen.Elm

/-! ## Types -/

/-- Reads the definition of a union type: its name and its constructors. -/
def readUnionType (source : String) : Option (String × List String) :=
  match lines source with
  | heading :: items => do return (← after? "type " heading, ← readItems "=" "|" items)
  | [] => none

/-- The definition of a union type gives its name and its constructors. -/
theorem readUnionType_unionType {type : String} {names : List String} (single : IsLine type)
    (singles : ∀ name ∈ names, IsLine name) :
    readUnionType (unionType type names) = some (type, names) := by
  have heading : IsLine ("type " ++ type) := .append (by decide) single
  have items := written_itemTexts (by decide : IsLine "=") (by decide : IsLine "|") singles
  have written := List.forall_mem_cons.mpr ⟨⟨by simp, heading⟩, items⟩
  rw [readUnionType, unionType_eq, lines_dropNewlines (by simp) written]
  simp [readItems_itemTexts]

/-! ## Decoders -/

/-- Reads an arm off the front of a text: its literal, and the constructor that it answers. -/
def readArm (text : String) : Option ((String × String) × String) := do
  let text ← after? "                    " text
  let (wire, text) ← readLiteral text
  let text ← after? " ->\n                        JD.succeed " text
  let (name, text) ← readLine text
  let text ← after? "\n" text
  return ((wire, name), text)

/-- What comes before the arms, behind the lines that name the decoder. -/
def caseHeading : String :=
  "    JD.string\n" ++ "        |> JD.andThen\n" ++ "            (\\str ->\n" ++
    "                case str of\n"

/-- How the arm for everything else begins. -/
def wildcard : String := "                    _ ->\n" ++ "                        JD.fail ("

/-- Reads the arms up to the one for everything else. An arm that took nothing off the text would
come again for ever. -/
def readArms (text : String) : Option (List (String × String)) :=
  match after? wildcard text with
  | some _ => some []
  | none =>
    match readArm text with
    | some (arm, rest) =>
      if rest.length < text.length then (readArms rest).map (arm :: ·) else none
    | none => none
termination_by text.length

/-- Reads the arms of a decoder. -/
def readUnionDecoder (source : String) : Option (List (String × String)) := do
  let (_, text) ← readLine source
  let (_, text) ← readLine text
  let text ← after? caseHeading text
  readArms text

/-- What a decoder makes of a text: what the first arm with its literal answers. If there is no
such arm, the decoder fails. -/
def runDecoder (source text : String) : Option (Option String) :=
  (readUnionDecoder source).map fun arms => (arms.find? fun arm => arm.1 = text).map Prod.snd

/-- The texts that an arm is made of, one after another. -/
theorem decoderBranch_append (literal name rest : String) :
    decoderBranch literal name ++ rest = "                    " ++ (literal ++
      (" ->\n                        JD.succeed " ++ (name ++ "\n" ++ ("\n" ++ rest)))) := by
  have ends : "\n\n" = "\n" ++ "\n" := by simp
  have arrow : " ->\n                        JD.succeed " =
    " ->\n" ++ "                        JD.succeed " := by simp
  unfold decoderBranch
  rw [ends, arrow]
  simp only [String.append_assoc]

/-- The arm for a branch gives its literal and its constructor. -/
theorem readArm_decoderBranch (wire : String) {name : String} (single : IsLine name)
    (rest : String) :
    readArm (decoderBranch (quote wire) name ++ rest) = some ((wire, name), rest) := by
  rw [decoderBranch_append, readArm]
  simp only [after?_append, readLiteral_quote, readLine_append single, Option.bind_eq_bind,
    Option.bind_some]
  rfl

/-- No arm for a literal is the one for everything else. -/
theorem after?_decoderBranch (wire name rest : String) :
    after? wildcard (decoderBranch (quote wire) name ++ rest) = none := by
  have margin : wildcard = "                    " ++ "_ ->\n                        JD.fail (" := by
    unfold wildcard
    simp
  rw [decoderBranch_append, margin]
  refine if_neg ?_
  -- Behind the margin there is a quote and no wildcard.
  simp only [String.toList_append, List.prefix_append_right_inj]
  simp [quote]

/-- The arms of a decoder give the branches that they were made from. -/
theorem readArms_branches {branches : List (String × String)}
    (single : ∀ branch ∈ branches, IsLine branch.2) (rest : String) :
    readArms (concat (branches.map fun branch => decoderBranch (quote branch.1) branch.2) ++
      (wildcard ++ rest)) = some branches := by
  induction branches with
  | nil =>
    have none : concat [] = "" := rfl
    rw [List.map_nil, none, String.empty_append, readArms, after?_append]
  | cons branch others ih =>
    obtain ⟨wire, name⟩ := branch
    obtain ⟨first, singles⟩ := List.forall_mem_cons.mp single
    have parts (branch : String) (more : List String) :
        concat (branch :: more) = branch ++ concat more := rfl
    have shorter (rest : String) :
        rest.length < (decoderBranch (quote wire) name ++ rest).length := by
      have newline : "\n".length = 1 := rfl
      rw [decoderBranch_append]
      simp only [String.length_append, newline]
      omega
    rw [List.map_cons, parts, String.append_assoc, readArms, after?_decoderBranch,
      readArm_decoderBranch wire first]
    simp only [shorter, if_true, ih singles, Option.map_some]

/-- The texts that a decoder is made of, up to what it fails with. -/
theorem unionDecoder_front (decoder type : String) (branches : List (String × String)) :
    ∃ rest, unionDecoder decoder type branches =
      decoder ++ " : JD.Decoder " ++ type ++ "\n" ++ (decoder ++ " =" ++ "\n" ++ (caseHeading ++
        (concat (branches.map fun branch => decoderBranch branch.1 branch.2) ++
          (wildcard ++ rest)))) := by
  have ends : " =\n" = " =" ++ "\n" := rfl
  have fails : "                        JD.fail (\"Unknown " =
      "                        JD.fail (" ++ "\"Unknown " := by simp
  -- The text up to the parenthesis stays as it is, and what follows loses newlines at its end.
  have visible : (decoder ++ " : JD.Decoder " ++ type ++ "\n" ++ (decoder ++ " =" ++ "\n" ++
      (caseHeading ++ (concat (branches.map fun branch => decoderBranch branch.1 branch.2) ++
        wildcard)))).toList.getLast? ≠ some '\n' := by
    have last : wildcard.toList.getLast? = some '(' := by decide
    simp only [String.toList_append, List.getLast?_append, last, Option.some_or]
    decide
  obtain ⟨rest, parts⟩ := prefix_dropNewlines visible
    ("\"Unknown " ++ type ++ ": \" ++ str)\n" ++ "            )\n")
  refine ⟨String.ofList rest, ?_⟩
  rw [← String.toList_inj]
  unfold unionDecoder
  rw [fails, ends]
  unfold caseHeading wildcard at parts ⊢
  simp only [String.append_assoc] at parts ⊢
  rw [← parts]
  simp only [String.toList_append, String.toList_ofList, List.append_assoc]

/-- The decoder of a union type gives the literals and the constructors of its branches. -/
theorem readUnionDecoder_unionDecoder {decoder type : String} (single : IsLine decoder)
    (typed : IsLine type) {branches : List (String × String)}
    (singles : ∀ branch ∈ branches, IsLine branch.2) :
    readUnionDecoder (unionDecoder decoder type
      (branches.map fun branch => (quote branch.1, branch.2))) = some branches := by
  obtain ⟨rest, parts⟩ := unionDecoder_front decoder type
    (branches.map fun branch => (quote branch.1, branch.2))
  obtain ⟨heading, equation⟩ := isLine_decoderHeading single typed
  rw [parts, readUnionDecoder, readLine_append heading]
  simp only [Option.bind_eq_bind, Option.bind_some, readLine_append equation, after?_append,
    List.map_map, Function.comp_def, readArms_branches singles]

/-! ## Unions -/

/-- Both sources of a union give its constructors in their order, and the decoder its wire strings
as well, whatever stands in them. So the decoder takes a text to the first constructor that is sent
as this text, and it fails exactly on the texts that no constructor is sent as. -/
theorem Union.sources_read {union : Union} (typed : IsLine union.type)
    (named : ∀ variant ∈ union.variants, IsLine variant.name) :
    readUnionType union.typeSource = some (union.type, union.variants.map (·.name)) ∧
      readUnionDecoder union.decoderSource =
        some (union.variants.map fun variant => (variant.wire, variant.name)) ∧
      ∀ text,
        runDecoder union.decoderSource text =
          some ((union.variants.find? fun variant => variant.wire = text).map (·.name)) ∧
        (runDecoder union.decoderSource text = some none ↔
          ∀ variant ∈ union.variants, variant.wire ≠ text) := by
  have arms : readUnionDecoder union.decoderSource =
      some (union.variants.map fun variant => (variant.wire, variant.name)) := by
    have read := readUnionDecoder_unionDecoder (isLine_decoderName typed) typed
      (List.forall_mem_map.mpr named : ∀ branch ∈ union.variants.map fun variant =>
        (variant.wire, variant.name), IsLine branch.2)
    rwa [List.map_map] at read
  have runs (text : String) : runDecoder union.decoderSource text =
      some ((union.variants.find? fun variant => variant.wire = text).map (·.name)) := by
    rw [runDecoder, arms, Option.map_some, List.find?_map, Option.map_map]
    rfl
  refine ⟨readUnionType_unionType typed (List.forall_mem_map.mpr named), arms,
    fun text => ⟨runs text, ?_⟩⟩
  rw [runs, Option.some.injEq, Option.map_eq_none_iff, List.find?_eq_none]
  simp

/-- A union whose wire strings are hard to tell from the source around them. -/
def quotedMoods : Union :=
  ⟨"Mood", [⟨"MoodSaid", "a \"mood\" \\ \n"⟩, ⟨"MoodNone", ""⟩, ⟨"MoodStill", ""⟩,
    ⟨"MoodArm", "\" ->\n                        JD.succeed MoodNone\n\n                    _ ->"⟩]⟩

theorem Union.quotedMoods_read :
    IsLine quotedMoods.type ∧ (∀ variant ∈ quotedMoods.variants, IsLine variant.name) ∧
      readUnionType quotedMoods.typeSource =
        some ("Mood", ["MoodSaid", "MoodNone", "MoodStill", "MoodArm"]) ∧
      runDecoder quotedMoods.decoderSource "" = some (some "MoodNone") ∧
      runDecoder quotedMoods.decoderSource "mood" = some none := by
  have typed : IsLine quotedMoods.type := by decide
  have named : ∀ variant ∈ quotedMoods.variants, IsLine variant.name := by decide
  obtain ⟨type, -, runs⟩ := Union.sources_read typed named
  exact ⟨typed, named, type, (runs "").1, (runs "mood").1⟩

end ElmBindgen.Elm
