import ElmBindgen.Proofs.Elm.Spelling

/-!
# What a constructor keeps of a wire string

Behind the name of its type, a constructor has the letters and digits of a wire string, each of
them and no other characters. They keep their order, and they are written as they are, but for those
at the beginning of a run, which are put in upper case. Where a run begins is told by the character
before it, so what stands on the two sides of a separator has nothing to do with each other.

A constructor is therefore a legal name whatever the wire string is, if the type is one.

## Main definitions

* `Elm.withBefore`, `Elm.writtenAfter`: the characters of a text in their places
* `Elm.IsUpperName`: legal names of types and constructors

## Main results

* `Elm.constructorSuffix_eq_places`: a suffix is written place by place
* `Elm.constructorSuffix_append_separators`: a suffix falls into parts where separators stand
* `Elm.constructorName_keeps`: what a constructor is made of
-/

namespace ElmBindgen.Elm

variable {cs front separators back : List Char}

/-! ## Letters in their places -/

/-- The characters of a text, each of them with the one that stands before it. -/
def withBefore (before : Option Char) (cs : List Char) : List (Option Char × Char) :=
  (before :: cs.map some).zip cs

/-- How a letter or digit is written behind another character. It begins a run, and so it is put in
upper case, unless a letter or digit stands right before it. -/
def writtenAfter (before : Option Char) (c : Char) : Char :=
  if before.any isWordChar then c else c.toUpper

theorem map_written_letters_eq (before : Option Char) (cs : List Char) :
    (letters (!before.any isWordChar) cs).map Letter.written =
      ((withBefore before cs).filter fun place => isWordChar place.2).map fun place =>
        writtenAfter place.1 place.2 := by
  -- The first of the characters that are left is known to the recursion by what it stands behind.
  induction cs generalizing before with
  | nil => rfl
  | cons c rest ih =>
    have places : withBefore before (c :: rest) = (before, c) :: withBefore (some c) rest := rfl
    have others := ih (some c)
    rw [Option.any_some] at others
    rw [places]
    by_cases letter : isWordChar c
    · have own : Letter.written ⟨c, !before.any isWordChar, letter⟩ = writtenAfter before c := by
        cases begins : before.any isWordChar <;> simp [Letter.written, writtenAfter, begins]
      rw [letter, Bool.not_true] at others
      rw [letters, dif_pos letter, List.map_cons, own, others, List.filter_cons, if_pos letter,
        List.map_cons]
    · rw [eq_false_of_ne_true letter, Bool.not_false] at others
      rw [letters, dif_neg letter, others, List.filter_cons, if_neg letter]

/-- What distinguishes a constructor is written place by place. -/
theorem constructorSuffix_eq_places (wire : String) :
    constructorSuffix wire =
      ((withBefore none wire.toList).filter fun place => isWordChar place.2).map fun place =>
        writtenAfter place.1 place.2 := by
  rw [constructorSuffix_eq, ← map_written_letters_eq]
  rfl

/-- The letters of a text are its letters and digits, in their order. -/
theorem map_char_letters (begins : Bool) (cs : List Char) :
    (letters begins cs).map Letter.char = cs.filter isWordChar := by
  induction cs generalizing begins with
  | nil => rfl
  | cons c rest ih => by_cases letter : isWordChar c <;> simp [letters, letter, ih]

theorem map_toUpper_constructorSuffix (wire : String) :
    (constructorSuffix wire).map Char.toUpper =
      (wire.toList.filter isWordChar).map Char.toUpper := by
  rw [constructorSuffix_eq, ← map_char_letters true, List.map_map, List.map_map]
  exact List.map_congr_left fun letter _ => letter.written_case.1

/-! ## Separators -/

/-- Separators have no words. -/
theorem words_append_of_separators (separate : ∀ c ∈ separators, ¬isWordChar c)
    (back : List Char) : words (separators ++ back) = words back := by
  induction separators with
  | nil => rfl
  | cons c rest ih =>
    obtain ⟨separates, others⟩ := List.forall_mem_cons.mp separate
    have first := words_append_separator separates [] (rest ++ back)
    rw [List.cons_append, ← ih others]
    exact first

/-- Words do not run across separators. -/
theorem words_append_separators (nonempty : separators ≠ [])
    (separate : ∀ c ∈ separators, ¬isWordChar c) (front back : List Char) :
    words (front ++ separators ++ back) = words front ++ words back := by
  cases separators with
  | nil => exact absurd rfl nonempty
  | cons c rest =>
    obtain ⟨separates, others⟩ := List.forall_mem_cons.mp separate
    rw [List.append_assoc, List.cons_append, words_append_separator separates,
      words_append_of_separators others]

/-- What distinguishes a constructor falls into parts where separators stand. -/
theorem constructorSuffix_append_separators {separators : String} (nonempty : separators ≠ "")
    (separate : ∀ c ∈ separators.toList, ¬isWordChar c) (front back : String) :
    constructorSuffix (front ++ separators ++ back) =
      constructorSuffix front ++ constructorSuffix back := by
  have filled : separators.toList ≠ [] := mt String.toList_eq_nil_iff.mp nonempty
  rw [constructorSuffix, String.toList_append, String.toList_append,
    words_append_separators filled separate, List.flatMap_append, ← constructorSuffix,
    ← constructorSuffix]

/-! ## Legal names -/

/-- A legal name of a type or a constructor: a letter in upper case, and then letters, digits and
underscores. -/
def IsUpperName (name : String) : Prop :=
  ∃ first rest, name.toList = first :: rest ∧ first.isUpper ∧ ∀ c ∈ rest, c.isAlphanum ∨ c = '_'

/-- A word that begins in upper case is a legal name. -/
theorem IsAlphanumeric.isUpperName {name : String} (alphanumeric : IsAlphanumeric name)
    (upper : ∃ first ∈ name.toList.head?, first.isUpper) : IsUpperName name := by
  obtain ⟨first, head, upper⟩ := upper
  obtain ⟨rest, parts⟩ := List.head?_eq_some_iff.mp head
  have letters : ∀ c ∈ first :: rest, c.isAlphanum := parts ▸ alphanumeric
  exact ⟨first, rest, parts, upper, fun c here => .inl (letters c (List.mem_cons_of_mem _ here))⟩

/-- The constructors of a legal type are legal. -/
theorem IsUpperName.constructorName {type : String} (legal : IsUpperName type) (wire : String) :
    IsUpperName (constructorName type wire) := by
  obtain ⟨first, rest, parts, upper, others⟩ := legal
  refine ⟨first, rest ++ constructorSuffix wire, by simp [Elm.constructorName, parts], upper, ?_⟩
  exact List.forall_mem_append.mpr
    ⟨others, fun c here => .inl ((isConstructorSuffix_constructorSuffix wire).1 c here)⟩

/-! ## Constructors -/

/-- Behind its type, a constructor has nothing but the letters and digits of the wire string, all of
them and in their order, where those that begin a run are in upper case. So it is a legal name if
the type is a word that begins in upper case. What stands before separators and what stands behind
them are written one after the other. -/
theorem constructorName_keeps (type wire : String) :
    constructorName type wire = type ++ String.ofList (constructorSuffix wire) ∧
      (∀ c ∈ constructorSuffix wire, isWordChar c) ∧
      (constructorSuffix wire).map Char.toUpper =
        (wire.toList.filter isWordChar).map Char.toUpper ∧
      constructorSuffix wire =
        ((withBefore none wire.toList).filter fun place => isWordChar place.2).map
          (fun place => writtenAfter place.1 place.2) ∧
      (IsAlphanumeric type → (∃ first ∈ type.toList.head?, first.isUpper) →
        IsUpperName (constructorName type wire)) ∧
      ∀ front separators back, separators ≠ "" → (∀ c ∈ separators.toList, ¬isWordChar c) →
        constructorSuffix (front ++ separators ++ back) =
          constructorSuffix front ++ constructorSuffix back := by
  refine ⟨?_, (isConstructorSuffix_constructorSuffix wire).1, map_toUpper_constructorSuffix wire,
    constructorSuffix_eq_places wire, fun alphanumeric upper => ?_,
    fun front separators back nonempty separate => ?_⟩
  · simp [constructorName, String.ofList_append]
  · exact (alphanumeric.isUpperName upper).constructorName wire
  · exact constructorSuffix_append_separators nonempty separate front back

/-- A wire string that begins and ends with separators, has letters beyond ASCII among them, and
words that begin with digits. -/
theorem constructorName_floors :
    IsAlphanumeric "Floor" ∧ (∃ first ∈ "Floor".toList.head?, first.isUpper) ∧
      IsUpperName (constructorName "Floor" "-5è étage--9b ") ∧
      constructorName "Floor" "-5è étage--9b " = "Floor5Tage9b" ∧
      constructorSuffix ("-5" ++ "è é" ++ "tage--9b ") =
        constructorSuffix "-5" ++ constructorSuffix "tage--9b " := by
  have typed : IsAlphanumeric "Floor" := by decide
  have upper : ∃ first ∈ "Floor".toList.head?, first.isUpper := ⟨'F', by decide, by decide⟩
  obtain ⟨name, -, -, places, legal, parts⟩ := constructorName_keeps "Floor" "-5è étage--9b "
  have suffix : constructorSuffix "-5è étage--9b " = "5Tage9b".toList :=
    places.trans (by decide +kernel)
  have separate : ∀ c ∈ "è é".toList, ¬isWordChar c := by simp [isWordChar]
  refine ⟨typed, upper, legal typed upper, ?_, parts "-5" "è é" "tage--9b " (by decide) separate⟩
  rw [name, suffix]
  decide

end ElmBindgen.Elm
