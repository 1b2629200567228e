import ElmBindgen.Proofs.Elm.RecordSource
import Mathlib.Algebra.Ring.Nat

/-!
# Counting the lines of decoders

Every variant of a union adds three lines to its decoder, and every member of a record one. A
literal escapes quotes and backslashes but no newlines, so these numbers are right only up to the
newlines in wire strings and keys, each of which breaks a literal and adds a line.

## Main definitions

* `Elm.newlines`: how many newlines a text holds
* `Elm.EndsVisibly`: a text with a last character that is no newline

## Main results

* `Elm.length_lines`: a text has one line more than newlines
* `Elm.newlines_quote`: a literal holds the newlines of its text
* `Elm.length_lines_dropNewlines`: how many lines a template has
* `Elm.length_lines_unionDecoder`, `Elm.length_lines_recordDecoder`: how many lines decoders have
* `Elm.decoders_length_lines`: what this comes to for unions and records
-/

namespace ElmBindgen.Elm

/-! ## Newlines -/

/-- How many newlines a text holds. -/
def newlines (text : String) : Nat := text.toList.count '\n'

@[simp] theorem newlines_append (front back : String) :
    newlines (front ++ back) = newlines front + newlines back := by
  simp [newlines]

theorem newlines_eq_zero_iff {text : String} : newlines text = 0 ↔ IsLine text :=
  List.count_eq_zero

theorem newlines_newline : newlines "\n" = 1 := by simp [newlines]

/-- A text has one line more than newlines. -/
theorem length_lines (text : String) : (lines text).length = newlines text + 1 := by
  rw [lines, List.length_map, newlines]
  induction text.toList with
  | nil => rfl
  | cons c rest ih =>
    rw [List.splitOn_cons_eq_if_modifyHead, List.count_cons]
    split
    · rw [List.length_cons, ih]
    · rw [List.length_modifyHead, ih, Nat.add_zero]

/-- Escaping leaves newlines as they are. -/
theorem newlines_quote (text : String) : newlines (quote text) = newlines text := by
  simp [newlines, quote, count_escape]

/-! ## Templates -/

/-- A text with a last character that is no newline. -/
def EndsVisibly (text : String) : Prop := ∃ c ∈ text.toList.getLast?, c ≠ '\n'

theorem EndsVisibly.append {back : String} (visible : EndsVisibly back) (front : String) :
    EndsVisibly (front ++ back) := by
  obtain ⟨c, last, other⟩ := visible
  refine ⟨c, ?_, other⟩
  rw [String.toList_append, List.getLast?_append, Option.mem_def.mp last, Option.some_or]
  rfl

/-- A line that is not empty ends visibly. -/
theorem IsLine.endsVisibly {text : String} (single : IsLine text) (some : text ≠ "") :
    EndsVisibly text := by
  have nonempty : text.toList ≠ [] := by simpa using some
  refine ⟨_, List.getLast?_eq_some_getLast nonempty, ?_⟩
  intro newline
  exact single (newline ▸ List.getLast_mem nonempty)

/-- Only the last newline is dropped if what comes before it ends visibly. -/
theorem newlines_dropNewlines {front : String} (visible : EndsVisibly front) :
    newlines (dropNewlines (front ++ "\n")) = newlines front := by
  obtain ⟨c, last, other⟩ := visible
  obtain ⟨init, parts⟩ := List.getLast?_eq_some_iff.mp last
  have whole : (front ++ "\n").toList = front.toList ++ ['\n'] := by simp
  rw [newlines, toList_dropNewlines, whole, List.rdropWhile_concat_pos _ _ _ (by simp), parts,
    List.rdropWhile_concat_neg _ _ _ (by simpa using other), ← parts, newlines]

/-- Each text that is ended by a newline adds its newlines and this one. -/
theorem newlines_unlines (texts : List String) :
    newlines (unlines texts) = texts.length + (texts.map newlines).sum := by
  induction texts with
  | nil => rfl
  | cons text rest ih =>
    rw [unlines_cons, newlines_append, newlines_append, ih, newlines_newline, List.map_cons,
      List.sum_cons, List.length_cons]
    omega

/-- A template has a line for each text that it is made of and for each newline in these, if the
last of them ends visibly. -/
theorem length_lines_dropNewlines {texts : List String} {last : String}
    (ends : texts.getLast? = some last) (visible : EndsVisibly last) :
    (lines (dropNewlines (unlines texts))).length = texts.length + (texts.map newlines).sum := by
  obtain ⟨front, rfl⟩ := List.getLast?_eq_some_iff.mp ends
  have whole : unlines (front ++ [last]) = unlines front ++ last ++ "\n" := by
    rw [unlines_append, String.append_assoc]
    simp [unlines, concat]
  rw [length_lines, whole, newlines_dropNewlines (visible.append _), newlines_append,
    newlines_unlines, List.length_append, List.map_append, List.sum_append, List.map_singleton,
    List.sum_singleton, List.length_singleton]
  omega

/-- Lines have no newlines. -/
theorem sum_of_isLine {texts : List String} (singles : ∀ text ∈ texts, IsLine text) :
    (texts.map newlines).sum = 0 := by
  rw [List.sum_eq_zero_iff_forall_eq_nat]
  exact List.forall_mem_map.mpr fun text listed => newlines_eq_zero_iff.mpr (singles text listed)

/-! ## Decoders -/

/-- The lines for a branch: two and an empty one. -/
def branchLines (branch : String × String) : List String :=
  ["                    " ++ branch.1 ++ " ->",
    "                        JD.succeed " ++ branch.2, ""]

/-- The lines before the branches. -/
def unionHeading (decoder type : String) : List String :=
  [decoder ++ " : JD.Decoder " ++ type, decoder ++ " =", "    JD.string", "        |> JD.andThen",
    "            (\\str ->", "                case str of"]

/-- The lines behind the branches, but for the last one. -/
def unionEnding (type : String) : List String :=
  ["                    _ ->",
    "                        JD.fail (\"Unknown " ++ type ++ ": \" ++ str)"]

theorem unlines_branchLines (branches : List (String × String)) :
    unlines (branches.flatMap branchLines) =
      concat (branches.map fun branch => decoderBranch branch.1 branch.2) := by
  have arrow : " ->\n" = " ->" ++ "\n" := rfl
  have gap : "\n\n" = "\n" ++ "\n" := rfl
  induction branches with
  | nil => rfl
  | cons branch rest ih =>
    have first : unlines (branchLines branch) = decoderBranch branch.1 branch.2 := by
      unfold decoderBranch
      simp only [branchLines, unlines, concat, List.map_cons, List.map_nil, List.foldr_cons,
        List.foldr_nil, String.append_assoc, String.append_empty, String.empty_append, arrow, gap]
    rw [List.flatMap_cons, unlines_append, ih, first]
    rfl

theorem unionDecoder_eq (decoder type : String) (branches : List (String × String)) :
    unionDecoder decoder type branches = dropNewlines (unlines (unionHeading decoder type ++
      branches.flatMap branchLines ++ unionEnding type ++ ["            )"])) := by
  have equation : " =\n" = " =" ++ "\n" := rfl
  have string : "    JD.string\n" = "    JD.string" ++ "\n" := rfl
  have andThen : "        |> JD.andThen\n" = "        |> JD.andThen" ++ "\n" := rfl
  have function : "            (\\str ->\n" = "            (\\str ->" ++ "\n" := rfl
  have cases : "                case str of\n" = "                case str of" ++ "\n" := rfl
  have wildcard : "                    _ ->\n" = "                    _ ->" ++ "\n" := rfl
  have fails : ": \" ++ str)\n" = ": \" ++ str)" ++ "\n" := rfl
  have closing : "            )\n" = "            )" ++ "\n" := rfl
  rw [unionDecoder, unlines_append, unlines_append, unlines_append, unlines_branchLines]
  simp only [equation, string, andThen, function, cases, wildcard, fails, closing, unionHeading,
    unionEnding, unlines, concat, List.map_cons, List.map_nil, List.foldr_cons, List.foldr_nil,
    String.append_assoc, String.append_empty]

theorem sum_branchLines {branch : String × String} (named : IsLine branch.2) :
    ((branchLines branch).map newlines).sum = newlines branch.1 := by
  have margin := newlines_eq_zero_iff.mpr (by decide : IsLine "                    ")
  have arrow := newlines_eq_zero_iff.mpr (by decide : IsLine " ->")
  have succeed := newlines_eq_zero_iff.mpr
    (by decide : IsLine "                        JD.succeed ")
  have none := newlines_eq_zero_iff.mpr (by decide : IsLine "")
  have name := newlines_eq_zero_iff.mpr named
  simp only [branchLines, List.map_cons, List.map_nil, List.sum_cons, List.sum_nil, newlines_append]
  omega

/-- The decoder of a union has nine lines, three more for each branch, and one more for each newline
in a literal. -/
theorem length_lines_unionDecoder {decoder type : String} (single : IsLine decoder)
    (typed : IsLine type) {branches : List (String × String)}
    (named : ∀ branch ∈ branches, IsLine branch.2) :
    (lines (unionDecoder decoder type branches)).length =
      3 * branches.length + 9 + (branches.map fun branch => newlines branch.1).sum := by
  obtain ⟨heading, equation⟩ := isLine_decoderHeading single typed
  have front : ∀ text ∈ unionHeading decoder type, IsLine text := by
    refine List.forall_mem_cons.mpr ⟨heading, List.forall_mem_cons.mpr ⟨equation, ?_⟩⟩
    decide
  have fails : IsLine ("                        JD.fail (\"Unknown " ++ type ++ ": \" ++ str)") :=
    .append (.append (by decide) typed) (by decide)
  have ending : ∀ text ∈ unionEnding type ++ ["            )"], IsLine text := by
    refine List.forall_mem_cons.mpr ⟨by decide, List.forall_mem_cons.mpr ⟨fails, ?_⟩⟩
    decide
  have middle : (branches.flatMap branchLines).length = 3 * branches.length ∧
      ((branches.flatMap branchLines).map newlines).sum =
        (branches.map fun branch => newlines branch.1).sum := by
    induction branches with
    | nil => exact ⟨rfl, rfl⟩
    | cons branch rest ih =>
      obtain ⟨first, others⟩ := List.forall_mem_cons.mp named
      obtain ⟨length, sum⟩ := ih others
      rw [List.flatMap_cons, List.map_append, List.sum_append, sum_branchLines first, sum,
        List.length_append, length]
      refine ⟨?_, rfl⟩
      simp only [branchLines, List.length_cons, List.length_nil]
      omega
  have closing : EndsVisibly "            )" := IsLine.endsVisibly (by decide) (by decide)
  rw [unionDecoder_eq, length_lines_dropNewlines List.getLast?_concat closing, List.append_assoc,
    List.map_append, List.sum_append, List.map_append, List.sum_append, sum_of_isLine front,
    sum_of_isLine ending, middle.2, List.length_append, List.length_append, middle.1]
  simp only [unionHeading, unionEnding, List.length_cons, List.length_nil, List.length_append]
  omega

/-- The decoder of a record has three lines, one more for each step, and one more for each newline
in a step. -/
theorem length_lines_recordDecoder {decoder type : String} (single : IsLine decoder)
    (typed : IsLine type) {steps : List String} (visible : ∀ step ∈ steps, EndsVisibly step) :
    (lines (recordDecoder decoder type steps)).length =
      steps.length + 3 + (steps.map newlines).sum := by
  obtain ⟨heading, equation⟩ := isLine_decoderHeading single typed
  have succeed : IsLine ("    JD.succeed " ++ type) := .append (by decide) typed
  have shown : ∀ text ∈ (decoder ++ " : JD.Decoder " ++ type) :: (decoder ++ " =") ::
      ("    JD.succeed " ++ type) :: steps.map ("        |> " ++ ·), EndsVisibly text := by
    refine List.forall_mem_cons.mpr ⟨heading.endsVisibly (by simp), List.forall_mem_cons.mpr
      ⟨equation.endsVisibly (by simp), List.forall_mem_cons.mpr
        ⟨succeed.endsVisibly (by simp), List.forall_mem_map.mpr fun step listed => ?_⟩⟩⟩
    exact (visible step listed).append _
  have piped : (steps.map ("        |> " ++ ·)).map newlines = steps.map newlines := by
    have pipe := newlines_eq_zero_iff.mpr (by decide : IsLine "        |> ")
    rw [List.map_map]
    exact List.map_congr_left fun step _ => by simp [pipe]
  rw [recordDecoder_eq, length_lines_dropNewlines (List.getLast?_eq_some_getLast (by simp))
    (shown _ (List.getLast_mem _))]
  simp only [List.map_cons, List.sum_cons, piped, newlines_eq_zero_iff.mpr heading,
    newlines_eq_zero_iff.mpr equation, newlines_eq_zero_iff.mpr succeed, List.length_cons,
    List.length_map]
  omega

/-! ## Unions and records -/

theorem Member.newlines_decoderStep {member : Member} (decoder : IsLine member.value.decoder) :
    newlines member.decoderStep = newlines member.key := by
  have word : IsLine (if member.required then "JDP.required " else "JDP.optional ") := by
    split <;> decide
  have blank := newlines_eq_zero_iff.mpr (by decide : IsLine " ")
  rw [decoderStep]
  simp only [newlines_append, newlines_eq_zero_iff.mpr word, newlines_quote, blank,
    newlines_eq_zero_iff.mpr decoder]
  omega

theorem Member.endsVisibly_decoderStep {member : Member} (decoder : IsLine member.value.decoder) :
    EndsVisibly member.decoderStep := by
  have ending : EndsVisibly (" " ++ member.value.decoder) :=
    IsLine.endsVisibly (.append (by decide) decoder) (by simp)
  rw [decoderStep, String.append_assoc]
  exact ending.append _

/-- The lines of decoders. The decoder of a union has nine lines and three for each variant, up to
one more for each newline in a wire string; so it has just as many exactly if all wire strings are
lines. The decoder of a record has three lines and one for each member, up to one more for each
newline in a key. What breaks the lines are the literals, which are lines only if their texts
are. -/
theorem decoders_length_lines (union : Union) (record : Record) :
    (IsLine union.type → (∀ variant ∈ union.variants, IsLine variant.name) →
      (lines union.decoderSource).length = 3 * union.variants.length + 9 +
        (union.variants.map fun variant => newlines variant.wire).sum ∧
      ((lines union.decoderSource).length = 3 * union.variants.length + 9 ↔
        ∀ variant ∈ union.variants, IsLine variant.wire)) ∧
    (IsLine record.type → (∀ member ∈ record.members, IsLine member.value.decoder) →
      (lines record.decoderSource).length = record.members.length + 3 +
        (record.members.map fun member => newlines member.key).sum ∧
      ((lines record.decoderSource).length = record.members.length + 3 ↔
        ∀ member ∈ record.members, IsLine member.key)) ∧
    ∀ text, IsLine (quote text) ↔ IsLine text := by
  refine ⟨fun typed named => ?_, fun typed decoders => ?_, fun text => ?_⟩
  · have count := length_lines_unionDecoder (isLine_decoderName typed) typed
      (List.forall_mem_map.mpr named : ∀ branch ∈ union.variants.map fun variant =>
        (quote variant.wire, variant.name), IsLine branch.2)
    rw [List.length_map, List.map_map] at count
    simp only [Function.comp_def, newlines_quote] at count
    refine ⟨count, ?_⟩
    rw [Union.decoderSource, count, Nat.add_eq_left, List.sum_eq_zero_iff_forall_eq_nat,
      List.forall_mem_map]
    simp only [newlines_eq_zero_iff]
  · have count := length_lines_recordDecoder (isLine_decoderName typed) typed
      (List.forall_mem_map.mpr fun member listed =>
        Member.endsVisibly_decoderStep (decoders member listed))
    have steps : (record.members.map Member.decoderStep).map newlines =
        record.members.map fun member => newlines member.key := by
      rw [List.map_map]
      exact List.map_congr_left fun member listed =>
        Member.newlines_decoderStep (decoders member listed)
    rw [List.length_map, steps] at count
    refine ⟨count, ?_⟩
    rw [Record.decoderSource, count, Nat.add_eq_left, List.sum_eq_zero_iff_forall_eq_nat,
      List.forall_mem_map]
    simp only [newlines_eq_zero_iff]
  · rw [← newlines_eq_zero_iff, newlines_quote, newlines_eq_zero_iff]

/-- A union with a wire string of two lines. -/
def brokenMood : Union := ⟨"Mood", [⟨"MoodTorn", "torn\napart"⟩, ⟨"MoodWhole", "whole"⟩]⟩

/-- A record with a key of two lines. -/
def brokenVase : Record := ⟨"Vase", .response, [⟨"in\ntwo", true, ⟨"Int", "JD.int"⟩⟩]⟩

/-- The decoders of both have a line too many, since a literal goes over two lines. -/
theorem decoders_broken :
    IsLine brokenMood.type ∧ (∀ variant ∈ brokenMood.variants, IsLine variant.name) ∧
      (lines brokenMood.decoderSource).length = 3 * 2 + 9 + 1 ∧
      IsLine brokenVase.type ∧ (∀ member ∈ brokenVase.members, IsLine member.value.decoder) ∧
      (lines brokenVase.decoderSource).length = 1 + 3 + 1 ∧
      ¬IsLine (quote "torn\napart") := by
  have typed : IsLine brokenMood.type := by decide
  have named : ∀ variant ∈ brokenMood.variants, IsLine variant.name := by decide
  have typed' : IsLine brokenVase.type := by decide
  have decoders : ∀ member ∈ brokenVase.members, IsLine member.value.decoder := by decide
  obtain ⟨moods, vases, literals⟩ := decoders_length_lines brokenMood brokenVase
  exact ⟨typed, named, (moods typed named).1, typed', decoders, (vases typed' decoders).1,
    (literals _).not.mpr (by decide)⟩

end ElmBindgen.Elm
