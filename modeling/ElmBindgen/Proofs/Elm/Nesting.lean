import ElmBindgen.Proofs.Elm.Source

/-!
# Reading fragments

The type and the decoder of a member are texts, but both are written by a grammar: a type
is a word or a wrapper with its argument, which stands in parentheses unless it is a word,
and a decoder is a word or a wrapper with its argument, all of it in parentheses. Texts of
these grammars can be read in one way only. The fragments of lists, maps and optional
members are texts of these grammars, although their parentheses are set by looking for
blanks.

## Main definitions

* `Elm.Wrapper`, `Elm.Nesting`: what a fragment is built from
* `Elm.ReadsType`, `Elm.ReadsDecoder`, `Elm.ReadsStep`: the grammars
* `Elm.Nesting.fragment`: the fragment that is built along a nesting
* `Elm.Nesting.member`: the nesting of a member that may be missing

## Main results

* `Elm.ReadsType.unique`, `Elm.ReadsStep.unique`: a text is read in one way at most
* `Elm.Nesting.readsType_fragment`, `Elm.Nesting.readsStep_fragment`: a fragment reads as
  the nesting that it is built along
-/

namespace ElmBindgen.Elm

/-! ## Nestings -/

/-- What may stand around a type. -/
inductive Wrapper where
  | list
  | dict
  | maybe
  deriving DecidableEq, Repr

namespace Wrapper

/-- The words before the argument of a type. -/
def typeWord : Wrapper → String
  | list => "List"
  | dict => "Dict String"
  | maybe => "Maybe"

/-- The word before the argument of a decoder. -/
def decoderWord : Wrapper → String
  | list => "JD.list"
  | dict => "JD.dict"
  | maybe => "JD.nullable"

/-- The wrapper around a fragment. -/
def around : Wrapper → Fragment → Fragment
  | list => Fragment.list
  | dict => Fragment.dict
  | maybe => Fragment.optional

end Wrapper

/-- Wrappers around each other, and what is innermost. -/
inductive Nesting (α : Type) where
  | leaf (a : α)
  | wrap (wrapper : Wrapper) (inside : Nesting α)
  deriving DecidableEq, Repr

namespace Nesting

variable {α β : Type}

/-- The same wrappers around something else. -/
def map (change : α → β) : Nesting α → Nesting β
  | leaf a => leaf (change a)
  | wrap wrapper inside => wrap wrapper (inside.map change)

/-- What is innermost. -/
def core : Nesting α → α
  | leaf a => a
  | wrap _ inside => inside.core

/-- No wrapper says that something may be missing. -/
def Plain : Nesting α → Prop
  | leaf _ => True
  | wrap wrapper inside => wrapper ≠ .maybe ∧ inside.Plain

/-- The fragment that is built along a nesting. -/
def fragment : Nesting Fragment → Fragment
  | leaf fragment => fragment
  | wrap wrapper inside => wrapper.around inside.fragment

/-- The text of a type as an argument of a wrapper: a word stands for itself and anything
else in parentheses. -/
def argument (text : String) : Nesting String → String
  | leaf _ => text
  | wrap _ _ => "(" ++ text ++ ")"

end Nesting

/-! ## Grammars -/

/-- A word of a grammar. -/
def IsAtom (word : String) : Prop := word ≠ "" ∧ IsWord word

instance (word : String) : Decidable (IsAtom word) := instDecidableAnd

/-- The texts of types. -/
inductive ReadsType : String → Nesting String → Prop
  | atom {word} (isAtom : IsAtom word) : ReadsType word (.leaf word)
  | wrap {text inside} (wrapper : Wrapper) (reads : ReadsType text inside) :
      ReadsType (wrapper.typeWord ++ " " ++ inside.argument text) (.wrap wrapper inside)

/-- The texts of decoders of members that have to be there. -/
inductive ReadsDecoder : String → Nesting String → Prop
  | atom {word} (isAtom : IsAtom word) : ReadsDecoder word (.leaf word)
  | wrap {text inside wrapper} (needed : wrapper ≠ .maybe) (reads : ReadsDecoder text inside) :
      ReadsDecoder ("(" ++ wrapper.decoderWord ++ " " ++ text ++ ")") (.wrap wrapper inside)

/-- The texts of decoders in the steps of a record decoder. A member that may be missing has
its default as well. -/
inductive ReadsStep : String → Nesting String → Prop
  | needed {text nesting} (reads : ReadsDecoder text nesting) : ReadsStep text nesting
  | optional {text inside} (reads : ReadsDecoder text inside) :
      ReadsStep ("(" ++ Wrapper.maybe.decoderWord ++ " " ++ text ++ ") Nothing")
        (.wrap .maybe inside)

/-! ## Unique reading -/

namespace IsAtom

variable {word : String}

theorem blank_not_mem (isAtom : IsAtom word) : ' ' ∉ word.toList := by
  intro here
  have opens := (isAtom.2 ' ' here).1
  exact absurd opens (by decide)

theorem paren_not_mem (isAtom : IsAtom word) : '(' ∉ word.toList := by
  intro here
  have opens := (isAtom.2 '(' here).1
  exact absurd opens (by decide)

end IsAtom

/-- The words before an argument tell the wrapper. -/
theorem Wrapper.eq_of_typeWord {wrapper other : Wrapper} {rest last : String}
    (same : wrapper.typeWord ++ " " ++ rest = other.typeWord ++ " " ++ last) :
    wrapper = other ∧ rest = last := by
  obtain rfl : wrapper = other := by
    replace same := congrArg String.toList same
    cases wrapper <;> cases other <;> simp [typeWord] at same ⊢
  exact ⟨rfl, (String.append_right_inj _).mp same⟩

/-- So do the words before the argument of a decoder. -/
theorem Wrapper.eq_of_decoderWord {wrapper other : Wrapper} {rest last : String}
    (same : "(" ++ wrapper.decoderWord ++ " " ++ rest = "(" ++ other.decoderWord ++ " " ++ last) :
    wrapper = other ∧ rest = last := by
  obtain rfl : wrapper = other := by
    replace same := congrArg String.toList same
    cases wrapper <;> cases other <;> simp [decoderWord] at same ⊢
  exact ⟨rfl, (String.append_right_inj _).mp same⟩

namespace ReadsType

variable {text : String} {nesting other : Nesting String}

/-- How a text is read as a type. -/
theorem inv (reads : ReadsType text nesting) :
    match nesting with
    | .leaf word => IsAtom word ∧ text = word
    | .wrap wrapper inside => ∃ inner, ReadsType inner inside ∧
        text = wrapper.typeWord ++ " " ++ inside.argument inner := by
  cases reads with
  | atom isAtom => exact ⟨isAtom, rfl⟩
  | wrap wrapper reads => exact ⟨_, reads, rfl⟩

/-- A type that is wrapped is no word. -/
theorem not_isAtom (wrapper : Wrapper) (rest : String) :
    ¬IsAtom (wrapper.typeWord ++ " " ++ rest) := by
  intro isAtom
  exact isAtom.blank_not_mem (by simp)

/-- A text is read as a type in one way at most. -/
theorem unique (first : ReadsType text nesting) (second : ReadsType text other) :
    nesting = other := by
  -- By induction on the one reading; the other one starts with the same words.
  induction first generalizing other with
  | @atom word isAtom =>
    cases other with
    | leaf own =>
      obtain ⟨-, same⟩ := second.inv
      rw [same]
    | wrap wrapper inside =>
      obtain ⟨inner, -, rfl⟩ := second.inv
      exact absurd isAtom (not_isAtom _ _)
  | @wrap text inside wrapper reads ih =>
    cases other with
    | leaf own =>
      obtain ⟨isAtom, rfl⟩ := second.inv
      exact absurd isAtom (not_isAtom _ _)
    | wrap own content =>
      obtain ⟨inner, again, same⟩ := second.inv
      obtain ⟨rfl, arguments⟩ := Wrapper.eq_of_typeWord same
      -- An argument starts with a parenthesis exactly if it is no word.
      cases inside with
      | leaf word =>
        obtain ⟨isAtom, rfl⟩ := reads.inv
        cases content with
        | leaf last =>
          obtain ⟨-, rfl⟩ := again.inv
          rw [show text = inner from arguments]
        | wrap =>
          have parens : text = "(" ++ inner ++ ")" := arguments
          exact absurd (by simp [parens]) isAtom.paren_not_mem
      | wrap =>
        cases content with
        | leaf last =>
          obtain ⟨isAtom, rfl⟩ := again.inv
          have parens : "(" ++ text ++ ")" = inner := arguments
          exact absurd (by simp [← parens]) isAtom.paren_not_mem
        | wrap =>
          have parens : "(" ++ text ++ ")" = "(" ++ inner ++ ")" := arguments
          rw [String.append_left_inj, String.append_right_inj] at parens
          rw [ih (parens ▸ again)]

end ReadsType

namespace ReadsDecoder

variable {text : String} {nesting other : Nesting String}

/-- How a text is read as a decoder. -/
theorem inv (reads : ReadsDecoder text nesting) :
    match nesting with
    | .leaf word => IsAtom word ∧ text = word
    | .wrap wrapper inside => wrapper ≠ .maybe ∧ ∃ inner, ReadsDecoder inner inside ∧
        text = "(" ++ wrapper.decoderWord ++ " " ++ inner ++ ")" := by
  cases reads with
  | atom isAtom => exact ⟨isAtom, rfl⟩
  | wrap needed reads => exact ⟨needed, _, reads, rfl⟩

/-- A decoder that is wrapped is no word. -/
theorem not_isAtom (rest : String) : ¬IsAtom ("(" ++ rest) := by
  intro isAtom
  exact isAtom.paren_not_mem (by simp)

/-- A text is read as a decoder in one way at most. -/
theorem unique (first : ReadsDecoder text nesting) (second : ReadsDecoder text other) :
    nesting = other := by
  induction first generalizing other with
  | @atom word isAtom =>
    cases other with
    | leaf own =>
      obtain ⟨-, same⟩ := second.inv
      rw [same]
    | wrap wrapper inside =>
      obtain ⟨-, inner, -, rfl⟩ := second.inv
      simp only [String.append_assoc] at isAtom
      exact absurd isAtom (not_isAtom _)
  | @wrap text inside wrapper needed reads ih =>
    cases other with
    | leaf own =>
      obtain ⟨isAtom, rfl⟩ := second.inv
      simp only [String.append_assoc] at isAtom
      exact absurd isAtom (not_isAtom _)
    | wrap own content =>
      obtain ⟨-, inner, again, same⟩ := second.inv
      rw [String.append_left_inj] at same
      obtain ⟨rfl, rfl⟩ := Wrapper.eq_of_decoderWord same
      rw [ih again]

end ReadsDecoder

namespace ReadsStep

variable {text : String} {nesting other : Nesting String}

/-- The decoder of a member that has to be there has no default. -/
theorem not_readsDecoder (text rest : String) :
    ¬ReadsDecoder ("(" ++ Wrapper.maybe.decoderWord ++ " " ++ text ++ rest) nesting := by
  intro reads
  -- As a decoder the text would be wrapped, in a wrapper that only steps have.
  cases nesting with
  | leaf word =>
    have isAtom : IsAtom word := reads.inv.1
    rw [← reads.inv.2] at isAtom
    simp only [String.append_assoc] at isAtom
    exact ReadsDecoder.not_isAtom _ isAtom
  | wrap wrapper inside =>
    obtain ⟨needed, inner, -, same⟩ := reads.inv
    have words := (@String.append_assoc _ text rest).symm.trans
      (same.trans (@String.append_assoc _ inner ")"))
    exact needed (Wrapper.eq_of_decoderWord words).1.symm

/-- A text is read as the decoder of a step in one way at most. -/
theorem unique (first : ReadsStep text nesting) (second : ReadsStep text other) :
    nesting = other := by
  cases first with
  | needed reads =>
    cases second with
    | needed reads' => exact reads.unique reads'
    | optional => exact absurd reads (not_readsDecoder _ _)
  | @optional text inside reads =>
    generalize whole : "(" ++ Wrapper.maybe.decoderWord ++ " " ++ text ++ ") Nothing" = all
      at second
    cases second with
    | needed reads' =>
      rw [← whole] at reads'
      exact absurd reads' (not_readsDecoder _ _)
    | @optional own content reads' =>
      obtain ⟨-, rfl⟩ := Wrapper.eq_of_decoderWord ((String.append_left_inj _).mp whole)
      rw [reads.unique reads']

end ReadsStep

/-! ## Fragments -/

/-- Parentheses are set by looking for a blank. The types that have one are wrapped, and no
type starts with a parenthesis. -/
theorem ReadsType.parenthesize {text : String} {nesting : Nesting String}
    (reads : ReadsType text nesting) : Elm.parenthesize text = nesting.argument text := by
  rw [Elm.parenthesize]
  -- The words of a wrapper bring the blank in, and no word has one.
  cases reads with
  | atom isAtom =>
    refine if_neg ?_
    intro blank
    exact isAtom.blank_not_mem blank.1
  | wrap wrapper reads =>
    refine if_pos ⟨by simp, ?_⟩
    cases wrapper <;> simp [Wrapper.typeWord]

namespace Nesting

variable {nesting : Nesting Fragment}

theorem type_around (wrapper : Wrapper) (fragment : Fragment) :
    (wrapper.around fragment).type = wrapper.typeWord ++ " " ++ parenthesize fragment.type := by
  cases wrapper <;> rfl

theorem decoder_around {wrapper : Wrapper} (needed : wrapper ≠ .maybe) (fragment : Fragment) :
    (wrapper.around fragment).decoder =
      "(" ++ wrapper.decoderWord ++ " " ++ fragment.decoder ++ ")" := by
  cases wrapper with
  | list => rfl
  | dict => rfl
  | maybe => exact absurd rfl needed

/-- The type of a fragment reads as the nesting that the fragment is built along. -/
theorem readsType_fragment (isAtom : IsAtom nesting.core.type) :
    ReadsType nesting.fragment.type (nesting.map Fragment.type) := by
  induction nesting with
  | leaf fragment => exact .atom isAtom
  | wrap wrapper inside ih =>
    have reads := ih isAtom
    rw [fragment, type_around, reads.parenthesize]
    exact .wrap wrapper reads

/-- So does its decoder, where nothing may be missing. -/
theorem readsDecoder_fragment (isAtom : IsAtom nesting.core.decoder) (plain : nesting.Plain) :
    ReadsDecoder nesting.fragment.decoder (nesting.map Fragment.decoder) := by
  induction nesting with
  | leaf fragment => exact .atom isAtom
  | wrap wrapper inside ih =>
    rw [fragment, decoder_around plain.1]
    exact .wrap plain.1 (ih isAtom plain.2)

/-- The nesting of a member, which stands in a wrapper of its own if the member may be
missing. -/
def member (required : Bool) (nesting : Nesting Fragment) : Nesting Fragment :=
  if required then nesting else .wrap .maybe nesting

/-- The decoder of a member reads as the nesting of the member. -/
theorem readsStep_fragment (isAtom : IsAtom nesting.core.decoder) (plain : nesting.Plain)
    (required : Bool) :
    ReadsStep (nesting.member required).fragment.decoder
      ((nesting.member required).map Fragment.decoder) := by
  have reads := readsDecoder_fragment isAtom plain
  cases required with
  | true => exact .needed reads
  | false => exact .optional reads

theorem core_member (required : Bool) : (nesting.member required).core = nesting.core := by
  cases required <;> rfl

end Nesting

end ElmBindgen.Elm
