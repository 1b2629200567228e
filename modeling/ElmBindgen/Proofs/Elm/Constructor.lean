import ElmBindgen.Proofs.Elm.Source

/-!
# Names of constructors

The name of a constructor is that of its type with the words of a wire string behind it. The
words are run together, so the name does not tell where the type ends: two types get the same
constructor exactly if one of them goes on with what could be the words of the other.

## Main definitions

* `Elm.IsConstructorSuffix`: what the words of a wire string can look like
* `Elm.Prolongs`: a type that goes on after another one with such words
* `Elm.Absorbs`: a wire string that makes up for what a longer type goes on with

## Main results

* `Elm.words_append_separator`: words do not run across a separator
* `Elm.isConstructorSuffix_iff`: what the words of some wire string look like
* `Elm.constructorName_eq_iff`: when two types get the same constructor
* `Elm.exists_constructorName_eq_iff`: which types can get the same constructor
-/

namespace ElmBindgen.Elm

variable {cs front back : List Char} {c : Char}

/-! ## Words -/

/-- Pieces do not run across a separator. -/
theorem pieces_append_separator (separates : ¬isWordChar c) (front back : List Char) :
    pieces (front ++ c :: back) = pieces front ++ pieces back := by
  induction front with
  | nil => simp [pieces, separates]
  | cons first rest ih =>
    rw [List.cons_append, pieces, pieces, ih]
    split
    -- A text has a piece in any case, so the first letter has one to go to.
    · cases own : pieces rest with
      | cons piece others => rfl
      | nil =>
        unfold pieces at own
        split at own
        · cases own
        · split at own
          · split at own <;> cases own
          · cases own
    · rfl

/-- Words do not run across a separator. -/
theorem words_append_separator (separates : ¬isWordChar c) (front back : List Char) :
    words (front ++ c :: back) = words front ++ words back := by
  rw [words, pieces_append_separator separates, List.filter_append]
  rfl

/-- A text of letters and digits is one word. -/
theorem words_of_letters (nonempty : cs ≠ []) (letters : ∀ c ∈ cs, isWordChar c) :
    words cs = [cs] := by
  have whole : pieces cs = [cs] := by
    clear nonempty
    induction cs with
    | nil => rfl
    | cons first rest ih =>
      obtain ⟨letter, others⟩ := List.forall_mem_cons.mp letters
      rw [pieces, if_pos letter, ih others]
  rw [words, whole, List.filter_eq_self]
  simpa using nonempty

/-- Words consist of letters and digits and are not empty. -/
theorem of_mem_words {word : List Char} (here : word ∈ words cs) :
    word ≠ [] ∧ ∀ c ∈ word, isWordChar c := by
  obtain ⟨piece, nonempty⟩ := List.mem_filter.mp here
  refine ⟨by simpa using nonempty, ?_⟩
  clear here nonempty
  induction cs generalizing word with
  | nil =>
    obtain rfl := List.mem_singleton.mp piece
    simp
  | cons first rest ih =>
    rw [pieces] at piece
    split at piece
    · next letter =>
      split at piece
      · obtain rfl := List.mem_singleton.mp piece
        simpa using letter
      · next own others same =>
        rcases List.mem_cons.mp piece with rfl | piece
        · exact List.forall_mem_cons.mpr ⟨letter, ih (same ▸ List.mem_cons_self)⟩
        · exact ih (same ▸ List.mem_cons_of_mem _ piece)
    · rcases List.mem_cons.mp piece with rfl | piece
      · simp
      · exact ih piece

/-! ## Suffixes -/

/-- What the words of a wire string look like when they are run together: letters and digits,
of which the first is not in lower case. -/
def IsConstructorSuffix (cs : List Char) : Prop :=
  (∀ c ∈ cs, isWordChar c) ∧ ∀ c, cs.head? = some c → ¬c.isLower

/-- No upper case is in lower case, and what is not in lower case is its own upper case. -/
theorem isLower_toUpper {c : Char} (letter : isWordChar c) :
    ¬c.toUpper.isLower ∧ (¬c.isLower → c.toUpper = c) :=
  of_isAlphanum (fun c => ¬c.toUpper.isLower ∧ (¬c.isLower → c.toUpper = c))
    (by decide +kernel) letter

/-- A word in upper case is what the words of a wire string look like. -/
theorem isConstructorSuffix_capitalize (letters : ∀ c ∈ cs, isWordChar c) :
    IsConstructorSuffix (capitalize cs) := by
  rw [capitalize_of_letters letters]
  cases cs with
  | nil => simp [IsConstructorSuffix]
  | cons first rest =>
    obtain ⟨letter, others⟩ := List.forall_mem_cons.mp letters
    refine ⟨List.forall_mem_cons.mpr ⟨(isAlphanum_case letter).1, others⟩, ?_⟩
    rintro _ ⟨⟩
    exact (isLower_toUpper letter).1

namespace IsConstructorSuffix

theorem nil : IsConstructorSuffix [] := ⟨by simp, by simp⟩

theorem append (first : IsConstructorSuffix front) (second : IsConstructorSuffix back) :
    IsConstructorSuffix (front ++ back) := by
  refine ⟨List.forall_mem_append.mpr ⟨first.1, second.1⟩, fun c head => ?_⟩
  rw [List.head?_append, Option.or_eq_some_iff] at head
  rcases head with head | ⟨-, head⟩
  · exact first.2 c head
  · exact second.2 c head

theorem left (whole : IsConstructorSuffix (front ++ back)) : IsConstructorSuffix front := by
  refine ⟨fun c here => whole.1 c (List.mem_append_left _ here), fun c head => whole.2 c ?_⟩
  rw [List.head?_append, head, Option.some_or]

/-- What looks like the words of a wire string stays as it is when it is one. -/
theorem capitalize_eq (suffix : IsConstructorSuffix cs) : capitalize cs = cs := by
  rw [capitalize_of_letters suffix.1]
  cases cs with
  | nil => rfl
  | cons first rest =>
    have upper := (isLower_toUpper (suffix.1 first List.mem_cons_self)).2 (suffix.2 first rfl)
    rw [List.modifyHead_cons, upper]

/-- It is the suffix of itself, and it comes first if it is separated from what follows. -/
theorem constructorSuffix_append (suffix : IsConstructorSuffix cs) (wire : String) :
    constructorSuffix (String.ofList (cs ++ '-' :: wire.toList)) =
      cs ++ constructorSuffix wire := by
  rw [constructorSuffix, String.toList_ofList, words_append_separator (by decide),
    List.flatMap_append, constructorSuffix]
  congr 1
  by_cases nonempty : cs = []
  · subst nonempty
    rfl
  · rw [words_of_letters nonempty suffix.1, List.flatMap_singleton, suffix.capitalize_eq]

end IsConstructorSuffix

theorem isConstructorSuffix_constructorSuffix (wire : String) :
    IsConstructorSuffix (constructorSuffix wire) := by
  have letters : ∀ word ∈ words wire.toList, ∀ c ∈ word, isWordChar c :=
    fun word here => (of_mem_words here).2
  rw [constructorSuffix]
  generalize words wire.toList = all at letters
  induction all with
  | nil => exact .nil
  | cons word rest ih =>
    obtain ⟨own, others⟩ := List.forall_mem_cons.mp letters
    rw [List.flatMap_cons]
    exact (isConstructorSuffix_capitalize own).append (ih others)

/-- Every text that looks like the words of a wire string is made of those of one. -/
theorem isConstructorSuffix_iff : IsConstructorSuffix cs ↔ ∃ wire, constructorSuffix wire = cs := by
  constructor
  · intro suffix
    refine ⟨String.ofList (cs ++ '-' :: "".toList), ?_⟩
    rw [suffix.constructorSuffix_append]
    exact List.append_nil cs
  · rintro ⟨wire, rfl⟩
    exact isConstructorSuffix_constructorSuffix wire

/-! ## Constructors of two types -/

/-- A type goes on after another one with what could be the words of a wire string. -/
def Prolongs (longer type : String) : Prop :=
  ∃ more, more ≠ [] ∧ IsConstructorSuffix more ∧ longer.toList = type.toList ++ more

/-- The words of a wire string start with what a longer type goes on with, and go on with the
words of a wire string of the longer type. -/
def Absorbs (type wire longer other : String) : Prop :=
  ∃ more, more ≠ [] ∧ IsConstructorSuffix more ∧ longer.toList = type.toList ++ more ∧
    constructorSuffix wire = more ++ constructorSuffix other

theorem Absorbs.prolongs {type wire longer other : String}
    (absorbs : Absorbs type wire longer other) : Prolongs longer type := by
  obtain ⟨more, nonempty, suffix, longer, -⟩ := absorbs
  exact ⟨more, nonempty, suffix, longer⟩

section Types

variable {first second : String}

/-- Two types get the same constructor exactly if the wire string of the one makes up for what
the other goes on with. -/
theorem constructorName_eq_iff (different : first ≠ second) {wire other : String} :
    constructorName first wire = constructorName second other ↔
      Absorbs first wire second other ∨ Absorbs second other first wire := by
  -- What is left over when one type ends belongs to a suffix, and so it looks like one.
  have absorbs {type wire longer other : String} (different : longer ≠ type) {more : List Char}
      (longer_eq : longer.toList = type.toList ++ more)
      (words : constructorSuffix wire = more ++ constructorSuffix other) :
      Absorbs type wire longer other := by
    have suffix := isConstructorSuffix_constructorSuffix wire
    rw [words] at suffix
    refine ⟨more, ?_, suffix.left, longer_eq, words⟩
    rintro rfl
    rw [List.append_nil] at longer_eq
    exact different (String.toList_inj.mp longer_eq)
  rw [constructorName, constructorName, String.ofList_inj, List.append_eq_append_iff]
  constructor
  · rintro (⟨more, longer, words⟩ | ⟨more, longer, words⟩)
    · exact .inl (absorbs different.symm longer words)
    · exact .inr (absorbs different longer words)
  · rintro (⟨more, -, -, longer, words⟩ | ⟨more, -, -, longer, words⟩)
    · exact .inl ⟨more, longer, words⟩
    · exact .inr ⟨more, longer, words⟩

/-- Every constructor of a longer type is one of the shorter type as well. -/
theorem Prolongs.exists_constructorName (prolongs : Prolongs second first) (other : String) :
    ∃ wire, constructorName first wire = constructorName second other := by
  obtain ⟨more, -, suffix, longer⟩ := prolongs
  refine ⟨String.ofList (more ++ '-' :: other.toList), ?_⟩
  rw [constructorName, suffix.constructorSuffix_append, constructorName, longer,
    List.append_assoc]

/-- Different types can get the same constructor exactly if one of them prolongs the other. -/
theorem exists_constructorName_eq_iff (different : first ≠ second) :
    (∃ wire other, constructorName first wire = constructorName second other) ↔
      Prolongs second first ∨ Prolongs first second := by
  constructor
  · rintro ⟨wire, other, same⟩
    exact ((constructorName_eq_iff different).mp same).imp Absorbs.prolongs Absorbs.prolongs
  · rintro (prolongs | prolongs)
    · obtain ⟨wire, same⟩ := prolongs.exists_constructorName ""
      exact ⟨wire, "", same⟩
    · obtain ⟨wire, same⟩ := prolongs.exists_constructorName ""
      exact ⟨"", wire, same.symm⟩

end Types

end ElmBindgen.Elm
