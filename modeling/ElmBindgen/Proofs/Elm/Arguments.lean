import ElmBindgen.Proofs.Elm.Nesting
import ElmBindgen.Proofs.Elm.RecordSource

/-!
# Arguments of steps

A step of a record decoder is a call: behind its word and its key stand the arguments, with blanks
between them. Blanks inside of parentheses separate nothing, so a decoder is one argument however
deeply it is nested, and the decoder of a member that may be missing is two.

## Main definitions

* `Elm.arguments`: the arguments that a text consists of
* `Elm.Closed`: a text that is part of one argument
* `Elm.Member.StepFits`: a step has the arguments that its word asks for

## Main results

* `Elm.ReadsDecoder.arguments_eq`: a decoder is one argument
* `Elm.Member.stepFits`: every step fits
-/

namespace ElmBindgen.Elm

/-! ## Splitting -/

/-- How many parentheses are open behind a character. None can be closed if none is open. -/
def openAfter (depth : Nat) (c : Char) : Option Nat :=
  if c = '(' then some (depth + 1)
  else if c = ')' then if depth = 0 then none else some (depth - 1)
  else some depth

/-- The pieces of a text between the blanks outside of parentheses, if some parentheses have been
opened before and all of them are closed at the end. -/
def splitArguments (depth : Nat) : List Char → Option (List (List Char))
  | [] => if depth = 0 then some [[]] else none
  | c :: rest =>
    if c = ' ' ∧ depth = 0 then (splitArguments 0 rest).map ([] :: ·)
    else (openAfter depth c).bind fun inside =>
      (splitArguments inside rest).map (List.modifyHead (c :: ·))

/-- The arguments that a text consists of: its pieces, but for empty ones. -/
def arguments (text : String) : Option (List String) :=
  (splitArguments 0 text.toList).map fun pieces =>
    (pieces.filter (!·.isEmpty)).map String.ofList

example : arguments "(JD.dict (JD.list JD.int)) Nothing" =
    some ["(JD.dict (JD.list JD.int))", "Nothing"] := by decide

/-- A text that is part of one argument wherever at least some parentheses are open. -/
def Closed (least : Nat) (cs : List Char) : Prop :=
  ∀ depth, least ≤ depth → ∀ rest,
    splitArguments depth (cs ++ rest) = (splitArguments depth rest).map (List.modifyHead (cs ++ ·))

namespace Closed

variable {least : Nat} {cs front back : List Char}

theorem mono (closed : Closed least cs) {more : Nat} (enough : least ≤ more) : Closed more cs :=
  fun depth deep rest => closed depth (enough.trans deep) rest

theorem append (first : Closed least front) (second : Closed least back) :
    Closed least (front ++ back) := by
  intro depth deep rest
  rw [List.append_assoc, first depth deep, second depth deep, Option.map_map]
  congr 1
  funext pieces
  cases pieces <;> simp

/-- A character that is not set apart by blanks and opens or closes nothing. -/
theorem single {c : Char} (opens : c ≠ '(') (closes : c ≠ ')') (blank : c = ' ' → 0 < least) :
    Closed least [c] := by
  intro depth deep rest
  have same : openAfter depth c = some depth := by
    rw [openAfter, if_neg opens, if_neg closes]
  have inside : ¬(c = ' ' ∧ depth = 0) := by
    rintro ⟨separates, outside⟩
    have := blank separates
    omega
  rw [List.singleton_append, splitArguments, if_neg inside, same]
  rfl

theorem of_plain (plain : ∀ c ∈ cs, c ≠ '(' ∧ c ≠ ')' ∧ (c = ' ' → 0 < least)) :
    Closed least cs := by
  induction cs with
  | nil =>
    intro depth _ rest
    have unchanged : List.modifyHead (([] : List Char) ++ ·) = id := by
      funext pieces
      cases pieces <;> rfl
    rw [List.nil_append, unchanged, Option.map_id]
    rfl
  | cons c rest ih =>
    obtain ⟨⟨opens, closes, blank⟩, others⟩ := List.forall_mem_cons.mp plain
    exact (single opens closes blank).append (ih others)

/-- Inside of parentheses blanks separate nothing. -/
theorem parens (closed : Closed 1 cs) : Closed 0 ('(' :: (cs ++ [')'])) := by
  intro depth _ rest
  have up : openAfter depth '(' = some (depth + 1) := rfl
  have down : openAfter (depth + 1) ')' = some depth := rfl
  rw [List.cons_append, List.append_assoc, splitArguments, if_neg (by simp), up, Option.bind_some,
    closed (depth + 1) (by omega), List.singleton_append, splitArguments, if_neg (by simp), down,
    Option.bind_some, Option.map_map, Option.map_map]
  congr 1
  funext pieces
  cases pieces <;> simp

end Closed

/-- What is closed and not empty is an argument, and those behind it follow. -/
theorem arguments_append {front : String} (closed : Closed 0 front.toList) (some : front ≠ "")
    (rest : String) :
    arguments (front ++ " " ++ rest) = (arguments rest).map (front :: ·) := by
  have kept : front.toList ≠ [] := by simpa using some
  rw [arguments, String.toList_append, String.toList_append, List.append_assoc,
    closed 0 (Nat.le_refl 0)]
  simp only [String.reduceToList, List.singleton_append, splitArguments, and_self, if_true,
    Option.map_map, arguments]
  congr 1
  funext pieces
  simp [kept]

theorem arguments_of_closed {text : String} (closed : Closed 0 text.toList) (some : text ≠ "") :
    arguments text = .some [text] := by
  have kept : text.toList ≠ [] := by simpa using some
  have whole := closed 0 (Nat.le_refl 0) []
  rw [List.append_nil] at whole
  rw [arguments, whole]
  simp [splitArguments, kept]

/-! ## Decoders -/

/-- With a wrapper around it, what is closed stays closed. -/
theorem Wrapper.closed (wrapper : Wrapper) {text : String} (closed : Closed 0 text.toList) :
    Closed 0 ("(" ++ wrapper.decoderWord ++ " " ++ text ++ ")").toList := by
  have plain : Closed 1 (wrapper.decoderWord ++ " ").toList := .of_plain (by
    cases wrapper <;> simp [Wrapper.decoderWord])
  simpa [String.toList_append] using (plain.append (closed.mono (Nat.zero_le 1))).parens

/-- A decoder is closed: all that stands between its words is in parentheses. -/
theorem ReadsDecoder.closed {text : String} {nesting : Nesting String}
    (reads : ReadsDecoder text nesting) : Closed 0 text.toList := by
  induction reads with
  | atom isAtom =>
    refine .of_plain fun c here => ?_
    have word := (isAtom.2 c here).1
    simp only [opensWord, decide_eq_false_iff_not, not_or] at word
    exact ⟨word.2, (isAtom.2 c here).2, fun blank => absurd blank word.1⟩
  | wrap _ _ ih => exact Wrapper.closed _ ih

/-- A decoder is one argument. -/
theorem ReadsDecoder.arguments_eq {text : String} {nesting : Nesting String}
    (reads : ReadsDecoder text nesting) : arguments text = some [text] := by
  refine arguments_of_closed reads.closed ?_
  cases reads with
  | atom isAtom => exact isAtom.1
  | wrap => simp

/-! ## Steps -/

namespace Member

/-- The step of a member has the arguments that its word asks for: one if the member has to be
there, and otherwise a decoder that takes null as well, with what it gives then. In that case the
type says that the member may be missing. -/
def StepFits (member : Member) : Prop :=
  ∃ rest, readStep member.decoderStep = some (member.key, member.required, rest) ∧
    match member.required with
    | true => ∃ decoder, arguments rest = some [decoder]
    | false => ∃ decoder type, arguments decoder = some [decoder] ∧
        arguments rest = some ["(JD.nullable " ++ decoder ++ ")", "Nothing"] ∧
        member.value.type = "Maybe " ++ type

/-- The step of a member fits if its value is built along a nesting. -/
theorem stepFits {member : Member} {nesting : Nesting Fragment}
    (isAtom : IsAtom nesting.core.decoder) (plain : nesting.Plain)
    (built : member.value = (nesting.member member.required).fragment) : member.StepFits := by
  obtain ⟨key, required, value⟩ := member
  have reads := nesting.readsDecoder_fragment isAtom plain
  refine ⟨_, readStep_decoderStep _, ?_⟩
  cases required with
  | true =>
    obtain rfl : value = nesting.fragment := built
    exact ⟨_, reads.arguments_eq⟩
  | false =>
    obtain rfl : value = nesting.fragment.optional := built
    refine ⟨nesting.fragment.decoder, _, reads.arguments_eq, ?_, rfl⟩
    -- The blank behind the parentheses is the only one outside of any.
    have ends : ") Nothing" = ")" ++ " " ++ "Nothing" := by simp
    have group := arguments_append (Wrapper.closed .maybe reads.closed) (by simp) "Nothing"
    rw [Fragment.optional, ends, ← String.append_assoc, ← String.append_assoc]
    exact group

end Member

end ElmBindgen.Elm
