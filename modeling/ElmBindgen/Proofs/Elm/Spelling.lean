import Mathlib.Data.List.Forall2
import ElmBindgen.Proofs.Elm.Constructor

/-!
# Wire strings with the same constructor

Of a wire string, a constructor keeps the letters and digits, and it puts those that begin a word
in upper case. What separates the words is lost, and so is the case that the first letter of a word
had before. So two wire strings get the same constructor exactly if they are read alike: their
letters are the same up to case, and those that are in lower case inside a word are so in both.

Wire strings whose words begin in lower case and stand between single separators are kept apart,
since each letter in upper case then tells where a separator was.

## Main definitions

* `Elm.Letter`, `Elm.letters`: the letters of a text, and which of them begin a word
* `Elm.Alike`: wire strings that are read alike
* `Elm.Regular`: words in lower case between single separators
* `Elm.respell`: the spelling that such words had

## Main results

* `Elm.constructorSuffix_eq`: a suffix is written letter by letter
* `Elm.constructorName_eq_iff_alike`: when two wire strings get the same constructor
* `Elm.respell_constructorSuffix`: a suffix tells which words it was written from
-/

namespace ElmBindgen.Elm

variable {cs : List Char}

/-! ## Letters -/

/-- A letter or digit of a text. -/
structure Letter where
  char : Char
  /-- Whether a word begins with it. -/
  begins : Bool
  isWordChar : Elm.isWordChar char

/-- The letters and digits of a text, of which the first begins a word if `begins`. The next one
after a separator does so as well. -/
def letters (begins : Bool) : List Char → List Letter
  | [] => []
  | c :: rest =>
    if letter : isWordChar c then ⟨c, begins, letter⟩ :: letters false rest
    else letters true rest

namespace Letter

/-- How a letter is written in a constructor. -/
def written (letter : Letter) : Char :=
  if letter.begins then letter.char.toUpper else letter.char

/-- A letter that is written in lower case, since no word begins with it. -/
def IsSmall (letter : Letter) : Prop := letter.char.isLower ∧ ¬letter.begins

/-- Letters that are the same up to case, and small together. -/
def Same (letter other : Letter) : Prop :=
  letter.char.toUpper = other.char.toUpper ∧ (letter.IsSmall ↔ other.IsSmall)

instance (letter other : Letter) : Decidable (letter.Same other) :=
  inferInstanceAs (Decidable (_ ∧ (_ ∧ _ ↔ _ ∧ _)))

variable {letter other : Letter}

/-- A letter is written as itself, up to case, and in lower case exactly if it is small. -/
theorem written_case (letter : Letter) :
    letter.written.toUpper = letter.char.toUpper ∧ (letter.written.isLower ↔ letter.IsSmall) := by
  have upper : letter.char.toUpper.toUpper = letter.char.toUpper ∧ ¬letter.char.toUpper.isLower :=
    of_isAlphanum (fun c => c.toUpper.toUpper = c.toUpper ∧ ¬c.toUpper.isLower)
      (by decide +kernel) letter.isWordChar
  unfold written IsSmall
  split
  · next begins => exact ⟨upper.1, by simp [upper.2, begins]⟩
  · next inside => exact ⟨rfl, by simp [inside]⟩

theorem isWordChar_written (letter : Letter) : Elm.isWordChar letter.written := by
  unfold written
  split
  · exact (isAlphanum_case letter.isWordChar).1
  · exact letter.isWordChar

/-- Letters are written alike exactly if they are the same. -/
theorem written_inj : letter.written = other.written ↔ letter.Same other := by
  -- A letter or digit can be told from its upper case and whether it is in lower case.
  have back (letter : Letter) : letter.written =
      if letter.written.isLower then letter.written.toUpper.toLower
      else letter.written.toUpper :=
    of_isAlphanum
      (fun c => c.isAlphanum → c = if c.isLower then c.toUpper.toLower else c.toUpper)
      (by decide +kernel) letter.isWordChar_written letter.isWordChar_written
  obtain ⟨own, small⟩ := letter.written_case
  obtain ⟨its, small'⟩ := other.written_case
  constructor
  · intro same
    exact ⟨by rw [← own, ← its, same], by rw [← small, ← small', same]⟩
  · rintro ⟨upper, together⟩
    rw [← small, ← small'] at together
    rw [back letter, back other, own, its, upper]
    simp only [together]

end Letter

/-! ## Suffixes, letter by letter -/

/-- Pieces give nothing but their letters, whether or not the first one begins a word. -/
theorem map_written_letters (cs : List Char) :
    ∃ piece others, pieces cs = piece :: others ∧
      (letters true cs).map Letter.written = capitalize piece ++ others.flatMap capitalize ∧
      (letters false cs).map Letter.written = piece ++ others.flatMap capitalize := by
  -- The letters before a piece belong to it, so both readings of the rest are needed.
  induction cs with
  | nil => exact ⟨[], [], rfl, rfl, rfl⟩
  | cons c rest ih =>
    obtain ⟨piece, others, parts, begun, inside⟩ := ih
    by_cases letter : isWordChar c
    · have upper : Text.upperChar c = [c.toUpper] := if_pos (toNat_lt_of_isAlphanum letter)
      refine ⟨c :: piece, others, by rw [pieces, if_pos letter, parts], ?_, ?_⟩
      · simp [letters, letter, Letter.written, inside, capitalize, upper]
      · simp [letters, letter, Letter.written, inside]
    · refine ⟨[], piece :: others, by rw [pieces, if_neg letter, parts], ?_, ?_⟩
      · simp [letters, letter, begun, capitalize]
      · simp [letters, letter, begun]

/-- What distinguishes the constructor for a wire string is written letter by letter. -/
theorem constructorSuffix_eq (wire : String) :
    constructorSuffix wire = (letters true wire.toList).map Letter.written := by
  -- Empty pieces are no words, and they have no letters.
  have filled (all : List (List Char)) :
      (all.filter (!·.isEmpty)).flatMap capitalize = all.flatMap capitalize := by
    induction all with
    | nil => rfl
    | cons piece others ih => cases piece <;> simp [ih, capitalize]
  obtain ⟨piece, others, parts, begun, -⟩ := map_written_letters wire.toList
  rw [constructorSuffix, words, filled, parts, begun, List.flatMap_cons]

/-! ## Wire strings that are read alike -/

/-- Wire strings have the same letters and digits, one for one. They may differ in what separates
words, and in the case of a letter that begins a word. -/
def Alike (wire other : String) : Prop :=
  List.Forall₂ Letter.Same (letters true wire.toList) (letters true other.toList)

instance (wire other : String) : Decidable (Alike wire other) :=
  inferInstanceAs (Decidable (List.Forall₂ _ _ _))

/-- Two wire strings get the same constructor of a type exactly if they are read alike. -/
theorem constructorName_eq_iff_alike (type wire other : String) :
    constructorName type wire = constructorName type other ↔ Alike wire other := by
  rw [constructorName, constructorName, String.ofList_inj, List.append_cancel_left_eq,
    constructorSuffix_eq, constructorSuffix_eq, ← List.forall₂_eq_eq_eq,
    List.forall₂_map_left_iff, List.forall₂_map_right_iff]
  simp only [Letter.written_inj, Alike]

/-! ## Regular wire strings -/

/-- Whether a text consists of words that begin with a letter in lower case and go on with such
letters and digits, with single separators between them. A word is still to come if `begins`. -/
def isRegular (separator : Char) (begins : Bool) : List Char → Bool
  | [] => !begins
  | c :: rest =>
    if c = separator then !begins && isRegular separator true rest
    else (c.isLower || !begins && c.isDigit) && isRegular separator false rest

/-- A wire string of regular words. -/
def Regular (separator : Char) (wire : String) : Prop := isRegular separator true wire.toList

instance (separator : Char) (wire : String) : Decidable (Regular separator wire) :=
  inferInstanceAs (Decidable (_ = true))

/-- The spelling that words had before they were run together. -/
def respell (separator : Char) : List Char → List Char
  | [] => []
  | c :: rest =>
    if c.isUpper then separator :: c.toLower :: respell separator rest
    else c :: respell separator rest

/-- Small letters and digits stay as they are, and a letter that begins a word is known by its upper
case. -/
theorem case_of_isLower {c : Char} (lower : c.isLower) :
    isWordChar c ∧ ¬c.isUpper ∧ c.toUpper.isUpper ∧ c.toUpper.toLower = c := by
  have letter : ((c.isUpper || c.isLower) || c.isDigit) = true := by simp [lower]
  exact of_isAlphanum (fun c => c.isLower →
    isWordChar c ∧ ¬c.isUpper ∧ c.toUpper.isUpper ∧ c.toUpper.toLower = c)
    (by decide +kernel) letter lower

theorem case_of_isDigit {c : Char} (digit : c.isDigit) : isWordChar c ∧ ¬c.isUpper := by
  have letter : (c.isAlpha || c.isDigit) = true := by simp [digit]
  exact of_isAlphanum (fun c => c.isDigit → isWordChar c ∧ ¬c.isUpper)
    (by decide +kernel) letter digit

variable {separator : Char}

/-- Respelled, the letters of regular words give the words back. -/
theorem respell_letters (separates : ¬isWordChar separator) {begins : Bool}
    (regular : isRegular separator begins cs) :
    respell separator ((letters begins cs).map Letter.written) =
      (if begins then [separator] else []) ++ cs := by
  induction cs generalizing begins with
  | nil =>
    have inside : begins = false := by simpa [isRegular] using regular
    simp [letters, respell, inside]
  | cons c rest ih =>
    rw [isRegular] at regular
    by_cases here : c = separator
    · subst here
      obtain ⟨inside, more⟩ : begins = false ∧ isRegular c true rest := by simpa using regular
      simp [letters, separates, ih more, inside]
    · obtain ⟨letter, more⟩ : (c.isLower ∨ begins = false ∧ c.isDigit) ∧
          isRegular separator false rest := by simpa [here] using regular
      -- A letter comes back whether it begins a word or not; a digit never begins one.
      rcases letter with lower | ⟨rfl, digit⟩
      · obtain ⟨letter, small, upper, back⟩ := case_of_isLower lower
        cases begins <;>
          simp [letters, letter, Letter.written, respell, small, upper, back, ih more]
      · obtain ⟨letter, small⟩ := case_of_isDigit digit
        simp [letters, letter, Letter.written, respell, small, ih more]

/-- A suffix tells which regular words it was written from. -/
theorem respell_constructorSuffix (separates : ¬isWordChar separator) {wire : String}
    (regular : Regular separator wire) :
    respell separator (constructorSuffix wire) = separator :: wire.toList := by
  rw [constructorSuffix_eq, respell_letters separates regular]
  rfl

/-- Regular wire strings with the same separator are read alike only if they are the same. -/
theorem Alike.eq_of_regular (separates : ¬isWordChar separator) {wire other : String}
    (alike : Alike wire other) (regular : Regular separator wire)
    (regular' : Regular separator other) : wire = other := by
  have same : constructorSuffix wire = constructorSuffix other := by
    have names := (constructorName_eq_iff_alike "" wire other).mpr alike
    rwa [constructorName, constructorName, String.ofList_inj, List.append_cancel_left_eq] at names
  have spelled := respell_constructorSuffix separates regular
  rw [same, respell_constructorSuffix separates regular', List.cons_inj_right] at spelled
  exact String.toList_inj.mp spelled.symm

end ElmBindgen.Elm
