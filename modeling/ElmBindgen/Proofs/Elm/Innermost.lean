import ElmBindgen.Elm.Fragment
import ElmBindgen.Resolver.Chain
import Mathlib.Data.List.DropRight

/-!
# Innermost words of fragments

The wrappers of lists, maps and optional members put words before the text of what they
hold and parentheses around it. So the word that a fragment is about can be read off its
text: it is the last word before the first closing parenthesis.

## Main definitions

* `Elm.innermost`: the innermost word of a text
* `Elm.Encloses`: a text with another one at its innermost place

## Main results

* `Elm.Encloses.innermost_eq`: the innermost word of a text is the word that it encloses
* `Chain.encloses_leaf`: the fragment of a chain encloses that of its leaf
-/

namespace ElmBindgen.Elm

/-! ## Words -/

/-- Whether a character stands before a word: a blank or an opening parenthesis. -/
def opensWord (c : Char) : Bool := c = ' ' ∨ c = '('

/-- The innermost word of a text: the last one before the first closing parenthesis. -/
def innermost (text : String) : String :=
  String.ofList ((text.toList.takeWhile (· ≠ ')')).rtakeWhile fun c => !opensWord c)

example : innermost "Maybe (List (Dict String Folder))" = "Folder" := by decide

/-- A text that could be one word: it has no blanks and no parentheses. -/
def IsWord (word : String) : Prop := ∀ c ∈ word.toList, opensWord c = false ∧ c ≠ ')'

instance (word : String) : Decidable (IsWord word) :=
  decidable_of_iff (word.toList.all fun c => opensWord c = false ∧ c ≠ ')') (by simp [IsWord])

/-- A text has another one at its innermost place: before it stands nothing or something
that ends where a word may start, and after it nothing or a closing parenthesis. -/
def Encloses (text inner : String) : Prop :=
  ∃ front back, text.toList = front ++ inner.toList ++ back ∧ ')' ∉ front ∧
    (∀ c, front.getLast? = some c → opensWord c) ∧ (∀ c, back.head? = some c → c = ')')

namespace Encloses

variable {text inner : String}

theorem refl (text : String) : Encloses text text :=
  ⟨[], [], by simp, by simp, by simp, by simp⟩

/-- What ends where a word may start can stand in front of a text. -/
theorem behind (encloses : Encloses text inner) (before : String) (plain : ')' ∉ before.toList)
    (opens : before.toList.getLast?.all opensWord) : Encloses (before ++ text) inner := by
  obtain ⟨front, back, same, clear, opened, closed⟩ := encloses
  refine ⟨before.toList ++ front, back, by simp [same], ?_, ?_, closed⟩
  · rw [List.mem_append]
    exact fun here => here.elim plain clear
  · intro c last
    rw [List.getLast?_append, Option.or_eq_some_iff] at last
    rcases last with last | ⟨-, last⟩
    · exact opened c last
    · exact (Option.all_eq_true _ _).mp opens c last

/-- What starts with a closing parenthesis can stand behind a text. -/
theorem ahead (encloses : Encloses text inner) (after : String)
    (closes : after.toList.head?.all (· = ')')) : Encloses (text ++ after) inner := by
  obtain ⟨front, back, same, clear, opened, closed⟩ := encloses
  refine ⟨front, back ++ after.toList, by simp [same], clear, opened, ?_⟩
  intro c head
  rw [List.head?_append, Option.or_eq_some_iff] at head
  rcases head with head | ⟨-, head⟩
  · exact closed c head
  · simpa using (Option.all_eq_true _ _).mp closes c head

theorem parenthesize (encloses : Encloses text inner) : Encloses (Elm.parenthesize text) inner := by
  rw [Elm.parenthesize]
  split
  · exact (encloses.behind "(" (by decide) (by decide)).ahead ")" (by decide)
  · exact encloses

/-- The innermost word of a text is the word that it encloses. -/
theorem innermost_eq (encloses : Encloses text inner) (word : IsWord inner) :
    innermost text = inner := by
  obtain ⟨front, back, same, clear, opened, closed⟩ := encloses
  -- The first closing parenthesis stands behind the word, if there is one.
  have before : text.toList.takeWhile (· ≠ ')') = front ++ inner.toList := by
    have inside : ∀ c ∈ front ++ inner.toList, decide (c ≠ ')') := by
      intro c here
      rcases List.mem_append.mp here with here | here
      · simpa using fun same : c = ')' => clear (same ▸ here)
      · simpa using (word c here).2
    have none : back.takeWhile (· ≠ ')') = [] := by
      cases back with
      | nil => rfl
      | cons c rest => simp [closed c rfl]
    rw [same, List.takeWhile_append_of_pos inside, none, List.append_nil]
  -- What stands before the word ends where a word may start.
  have last : (front ++ inner.toList).rtakeWhile (fun c => !opensWord c) = inner.toList := by
    have inside : ∀ c ∈ inner.toList.reverse, !opensWord c := by
      intro c here
      simpa using (word c (List.mem_reverse.mp here)).1
    have none : front.reverse.takeWhile (fun c => !opensWord c) = [] := by
      cases front using List.reverseRecOn with
      | nil => rfl
      | append_singleton rest c => simp [opened c (by simp)]
    rw [List.rtakeWhile, List.reverse_append, List.takeWhile_append_of_pos inside, none,
      List.append_nil, List.reverse_reverse]
  rw [innermost, before, last, String.ofList_toList]

end Encloses

/-! ## Fragments -/

namespace Fragment

/-- The innermost type of a fragment with its innermost decoder. -/
def innermost (fragment : Fragment) : Fragment :=
  ⟨Elm.innermost fragment.type, Elm.innermost fragment.decoder⟩

/-- The type and the decoder of a fragment enclose those of another one. -/
def Encloses (whole inner : Fragment) : Prop :=
  Elm.Encloses whole.type inner.type ∧ Elm.Encloses whole.decoder inner.decoder

namespace Encloses

variable {whole inner : Fragment}

theorem list (encloses : whole.Encloses inner) : whole.list.Encloses inner := by
  constructor
  · exact encloses.1.parenthesize.behind "List " (by decide) (by decide)
  · exact (encloses.2.behind "(JD.list " (by decide) (by decide)).ahead ")" (by decide)

theorem dict (encloses : whole.Encloses inner) : whole.dict.Encloses inner := by
  constructor
  · exact encloses.1.parenthesize.behind "Dict String " (by decide) (by decide)
  · exact (encloses.2.behind "(JD.dict " (by decide) (by decide)).ahead ")" (by decide)

theorem optional (encloses : whole.Encloses inner) : whole.optional.Encloses inner := by
  constructor
  · exact encloses.1.parenthesize.behind "Maybe " (by decide) (by decide)
  · exact (encloses.2.behind "(JD.nullable " (by decide) (by decide)).ahead ") Nothing"
      (by decide)

theorem innermost_eq (encloses : whole.Encloses inner) (type : IsWord inner.type)
    (decoder : IsWord inner.decoder) : whole.innermost = inner := by
  rw [Fragment.innermost, encloses.1.innermost_eq type, encloses.2.innermost_eq decoder]

end Encloses

end Fragment

end ElmBindgen.Elm

namespace ElmBindgen

/-- The fragment of a chain encloses that of its leaf. -/
theorem Chain.encloses_leaf (chain : Chain) : chain.fragment.Encloses chain.leaf.fragment := by
  obtain ⟨links, leaf⟩ := chain
  rw [Chain.fragment]
  induction links with
  | nil => exact ⟨.refl _, .refl _⟩
  | cons link rest ih =>
    cases link with
    | list => exact ih.list
    | map => exact ih.dict

end ElmBindgen
