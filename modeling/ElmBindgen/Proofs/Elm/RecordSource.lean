import ElmBindgen.Elm.Render
import ElmBindgen.Proofs.Elm.Lines
import ElmBindgen.Proofs.Elm.Literal

/-!
# Reading records back

The alias of a record type has a field for each member, and the decoder of the record a step. The
constructor that comes with the alias takes its arguments in the order of the fields, and the steps
supply them one after another, so what keeps the two together is the position alone. Both sources
can be read back to the members, in their order and whatever stands in the keys, so a field and the
step in its position are those of one member.

## Main definitions

* `Elm.Member.OnOneLine`: a member whose field and step are lines
* `Elm.readField`, `Elm.readRecordType`: the fields of a record type
* `Elm.readStep`, `Elm.readRecordDecoder`: the steps of a record decoder

## Main results

* `Elm.Record.sources_list`: both sources of a record list the same members
-/

namespace ElmBindgen.Elm

/-- A member whose field and step are lines. As no key has a colon, the first colon of a field ends
the key. -/
structure Member.OnOneLine (member : Member) : Prop where
  key : IsLine member.key
  colonless : ':' ∉ member.key.toList
  type : IsLine member.value.type
  decoder : IsLine member.value.decoder

instance (member : Member) : Decidable member.OnOneLine :=
  decidable_of_iff (IsLine member.key ∧ ':' ∉ member.key.toList ∧ IsLine member.value.type ∧
      IsLine member.value.decoder)
    ⟨fun ⟨key, colonless, type, decoder⟩ => ⟨key, colonless, type, decoder⟩,
      fun plain => ⟨plain.key, plain.colonless, plain.type, plain.decoder⟩⟩

/-! ## Fields -/

/-- Reads a field: its key, up to the first colon, and the type behind the colon. -/
def readField (text : String) : Option (String × String) := do
  let front := text.toList.takeWhile (· ≠ ':')
  let key ← before? " " (String.ofList front)
  let type ← after? ": " (String.ofList (text.toList.drop front.length))
  return (key, type)

/-- Reads the definition of a record type: its name and its fields. The last line closes it. -/
def readRecordType (source : String) : Option (String × List (String × String)) :=
  match lines source with
  | heading :: body => do
    let type ← before? " =" (← after? "type alias " heading)
    let fields ← readItems "\x7b" "," body.dropLast
    return (type, ← fields.mapM readField)
  | [] => none

/-- The field of a member gives its key and its type. -/
theorem readField_typeLine {member : Member} (plain : member.OnOneLine) :
    readField member.typeLine = some (member.key, member.value.type) := by
  have inside : ∀ c ∈ (member.key ++ " ").toList, decide (c ≠ ':') := by
    rintro c here
    rw [String.toList_append, List.mem_append] at here
    rcases here with here | blank
    · exact decide_eq_true fun colon => plain.colonless (colon ▸ here)
    · obtain rfl := List.mem_singleton.mp blank
      decide
  have characters : member.typeLine.toList =
      (member.key ++ " ").toList ++ (": " ++ member.value.type).toList := by
    simp [Member.typeLine]
  have front : member.typeLine.toList.takeWhile (· ≠ ':') = (member.key ++ " ").toList := by
    rw [characters, List.takeWhile_append_of_pos inside]
    simp
  have rest : member.typeLine.toList.drop (member.key ++ " ").toList.length =
      (": " ++ member.value.type).toList := by
    rw [characters, List.drop_left]
  simp only [readField, front, rest, String.ofList_toList, before?_append, after?_append,
    Option.bind_eq_bind, Option.bind_some]
  rfl

theorem Member.OnOneLine.isLine_typeLine {member : Member} (plain : member.OnOneLine) :
    IsLine member.typeLine :=
  .append (.append plain.key (by decide)) plain.type

/-- The definition of a record type gives its name and the keys and types of the members. -/
theorem Record.readRecordType_typeSource {record : Record} (typed : IsLine record.type)
    (plain : ∀ member ∈ record.members, member.OnOneLine) :
    readRecordType record.typeSource =
      some (record.type, record.members.map fun member => (member.key, member.value.type)) := by
  have heading : IsLine ("type alias " ++ record.type ++ " =") :=
    .append (.append (by decide) typed) (by decide)
  have items := written_itemTexts (by decide : IsLine "\x7b") (by decide : IsLine ",")
    (List.forall_mem_map.mpr fun member listed => (plain member listed).isLine_typeLine :
      ∀ field ∈ record.members.map Member.typeLine, IsLine field)
  -- The line that closes the type is another one if there are no fields.
  have closing (empty : Bool) : (if empty then "    \x7b\x7d" else "    \x7d") ≠ "" ∧
      IsLine (if empty then "    \x7b\x7d" else "    \x7d") := by
    cases empty <;> decide
  have written := List.forall_mem_append.mpr
    ⟨List.forall_mem_cons.mpr ⟨⟨by simp, heading⟩, items⟩,
      List.forall_mem_singleton.mpr (closing (record.members.map Member.typeLine).isEmpty)⟩
  have fields := mapM_read fun member listed => readField_typeLine (plain member listed)
  rw [readRecordType, typeSource, recordType_eq, lines_dropNewlines (by simp) written]
  rw [List.cons_append]
  simp only [String.append_assoc, after?_append, before?_append, List.dropLast_concat,
    readItems_itemTexts, fields, Option.bind_eq_bind, Option.bind_some]
  rfl

/-! ## Steps -/

/-- Reads a step: its key, whether the member has to be there, and what else the step is given. -/
def readStep (text : String) : Option (String × Bool × String) := do
  let (required, text) ← match after? "JDP.required " text with
    | some rest => some (true, rest)
    | none => (after? "JDP.optional " text).map (false, ·)
  let (key, text) ← readLiteral text
  let decoder ← after? " " text
  return (key, required, decoder)

/-- Reads the line of a step. -/
def readStepLine (line : String) : Option (String × Bool × String) :=
  (after? "        |> " line).bind readStep

/-- Reads a record decoder: the type that it is for and its steps. -/
def readRecordDecoder (source : String) : Option (String × List (String × Bool × String)) :=
  match lines source with
  | _ :: _ :: heading :: steps => do
    let type ← after? "    JD.succeed " heading
    return (type, ← steps.mapM readStepLine)
  | _ => none

/-- The step of a member gives its key, whether it has to be there, and its decoder. -/
theorem readStep_decoderStep (member : Member) :
    readStep member.decoderStep = some (member.key, member.required, member.value.decoder) := by
  have other (rest : String) : after? "JDP.required " ("JDP.optional " ++ rest) = none :=
    if_neg (by simp)
  obtain ⟨key, required, value⟩ := member
  rw [Member.decoderStep, readStep]
  cases required <;>
    simp [other, String.append_assoc, readLiteral_quote]

theorem readStepLine_decoderStep (member : Member) :
    readStepLine ("        |> " ++ member.decoderStep) =
      some (member.key, member.required, member.value.decoder) := by
  rw [readStepLine, after?_append, Option.bind_some, readStep_decoderStep]

theorem isLine_quote {text : String} (single : IsLine text) : IsLine (quote text) := by
  have escaped : '\n' ∉ escape text.toList := by
    rw [← List.count_eq_zero, count_escape, if_neg (by decide), List.count_eq_zero.mpr single]
  simpa [IsLine, quote] using escaped

theorem Member.OnOneLine.isLine_decoderStep {member : Member} (plain : member.OnOneLine) :
    IsLine member.decoderStep := by
  have word : IsLine (if member.required then "JDP.required " else "JDP.optional ") := by
    split <;> decide
  exact .append (.append (.append word (isLine_quote plain.key)) (by decide)) plain.decoder

/-- The decoder of a record gives its type and the keys and decoders of the members. -/
theorem Record.readRecordDecoder_decoderSource {record : Record} (typed : IsLine record.type)
    (plain : ∀ member ∈ record.members, member.OnOneLine) :
    readRecordDecoder record.decoderSource = some (record.type,
      record.members.map fun member => (member.key, member.required, member.value.decoder)) := by
  obtain ⟨heading, equation⟩ := isLine_decoderHeading (isLine_decoderName typed) typed
  have succeed : IsLine ("    JD.succeed " ++ record.type) := .append (by decide) typed
  have pipeline : ∀ line ∈ (record.members.map Member.decoderStep).map ("        |> " ++ ·),
      line ≠ "" ∧ IsLine line := by
    rw [List.map_map]
    refine List.forall_mem_map.mpr fun member listed => ⟨by simp, ?_⟩
    exact .append (by decide) (plain member listed).isLine_decoderStep
  have written := List.forall_mem_cons.mpr ⟨⟨by simp, heading⟩, List.forall_mem_cons.mpr
    ⟨⟨by simp, equation⟩, List.forall_mem_cons.mpr ⟨⟨by simp, succeed⟩, pipeline⟩⟩⟩
  have steps := mapM_read fun member (_ : member ∈ record.members) =>
    readStepLine_decoderStep member
  rw [readRecordDecoder, decoderSource, recordDecoder_eq, lines_dropNewlines (by simp) written]
  simp only [after?_append, Option.bind_eq_bind, Option.bind_some, List.map_map,
    Function.comp_def, steps]
  rfl

/-! ## Records -/

/-- The sources of a record list the same members in the same order: the fields of the type with
their types, and the steps of the decoder with their decoders. So a field and the step in its
position are those of one member. -/
theorem Record.sources_list {record : Record} (typed : IsLine record.type)
    (plain : ∀ member ∈ record.members, member.OnOneLine) :
    ∃ (fields : List (String × String)) (steps : List (String × Bool × String)),
      readRecordType record.typeSource = some (record.type, fields) ∧
      readRecordDecoder record.decoderSource = some (record.type, steps) ∧
      fields = record.members.map (fun member => (member.key, member.value.type)) ∧
      steps = record.members.map (fun member =>
        (member.key, member.required, member.value.decoder)) ∧
      ∀ i : Nat, ∀ field ∈ fields[i]?, ∀ step ∈ steps[i]?, ∃ member ∈ record.members[i]?,
        field = (member.key, member.value.type) ∧
          step = (member.key, member.required, member.value.decoder) := by
  refine ⟨_, _, readRecordType_typeSource typed plain, readRecordDecoder_decoderSource typed plain,
    rfl, rfl, ?_⟩
  intro i field field' step step'
  rw [List.getElem?_map, Option.mem_def, Option.map_eq_some_iff] at field' step'
  obtain ⟨member, here, rfl⟩ := field'
  obtain ⟨other, same, rfl⟩ := step'
  obtain rfl : member = other := Option.some.inj (here.symm.trans same)
  exact ⟨member, here, rfl, rfl⟩

/-- A record whose keys are hard to tell from the source around them. -/
def quotedGuest : Record :=
  ⟨"Guest", .response,
    [⟨"so \"called\" \\", true, ⟨"String", "JD.string"⟩⟩,
      ⟨"", false, Fragment.optional (Fragment.list ⟨"Int", "JD.int"⟩)⟩,
      ⟨"\" JD.int", false, ⟨"Maybe Room : Int", "(JD.nullable roomDecoder) Nothing"⟩⟩]⟩

theorem Record.quotedGuest_list :
    IsLine quotedGuest.type ∧ (∀ member ∈ quotedGuest.members, member.OnOneLine) ∧
      readRecordType quotedGuest.typeSource = some ("Guest",
        [("so \"called\" \\", "String"), ("", "Maybe (List Int)"),
          ("\" JD.int", "Maybe Room : Int")]) ∧
      readRecordDecoder quotedGuest.decoderSource = some ("Guest",
        [("so \"called\" \\", true, "JD.string"),
          ("", false, "(JD.nullable (JD.list JD.int)) Nothing"),
          ("\" JD.int", false, "(JD.nullable roomDecoder) Nothing")]) := by
  have typed : IsLine quotedGuest.type := by decide
  have plain : ∀ member ∈ quotedGuest.members, member.OnOneLine := by decide
  obtain ⟨fields, steps, type, decoder, rfl, rfl, -⟩ := Record.sources_list typed plain
  exact ⟨typed, plain, type, decoder⟩

end ElmBindgen.Elm
