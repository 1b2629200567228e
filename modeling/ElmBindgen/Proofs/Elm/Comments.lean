import ElmBindgen.Proofs.Elm.Lines
import ElmBindgen.Proofs.Elm.Source

/-!
# Documentation as a comment

The documentation of a union is meant to be one comment. Comments nest: a mark that opens one inside
of another has to be met by one that closes it. The template itself brings one mark at the start and
one at the end. Everything else that can be a mark stands in the wire strings, which are copied as
they are, and so the comment ends where the text does only if their marks are balanced.

## Main definitions

* `Elm.afterComments`: what follows the comments that are open
* `Elm.IsComment`: a text that is one comment
* `Elm.Mark`, `Elm.marks`: what opens and what closes comments, and where a text does so
* `Elm.Balanced`: marks that close what they open

## Main results

* `Elm.afterComments_eq_iff`: a comment ends at the end exactly if the marks inside are balanced
* `Elm.marks_append`: texts have the marks of their parts
* `Elm.isComment_unionDoc_iff`: when the documentation of a union is one comment
-/

namespace ElmBindgen.Elm

/-! ## Comments -/

/-- What follows the comments that are open in front of a text, if all of them are closed. -/
def afterComments : Nat → List Char → Option (List Char)
  | 0, cs => some cs
  | _ + 1, [] => none
  | depth + 1, '\x7b' :: '-' :: rest => afterComments (depth + 2) rest
  | depth + 1, '-' :: '\x7d' :: rest => afterComments depth rest
  | depth + 1, _ :: rest => afterComments (depth + 1) rest

/-- A text that is one comment: the one that its first two characters open ends where the text
does. -/
def IsComment (text : String) : Prop :=
  ∃ inside, text.toList = '\x7b' :: '-' :: inside ∧ afterComments 1 inside = some []

/-- What opens a comment or closes one. -/
inductive Mark where
  | opening
  | closing
  deriving DecidableEq, Repr

/-- The marks in a text, read from its start on. -/
def marks : List Char → List Mark
  | [] => []
  | '\x7b' :: '-' :: rest => .opening :: marks rest
  | '-' :: '\x7d' :: rest => .closing :: marks rest
  | _ :: rest => marks rest

/-- Marks that close all comments that they open and `depth` more, and none that is not open. -/
structure Balanced (depth : Nat) (found : List Mark) : Prop where
  within : ∀ front, front <+: found → front.count .closing ≤ depth + front.count .opening
  whole : found.count .closing = depth + found.count .opening

namespace Balanced

variable {depth : Nat} {found : List Mark}

theorem nil_iff : Balanced depth [] ↔ depth = 0 := by
  constructor
  · intro balanced
    simpa using balanced.whole.symm
  · rintro rfl
    exact ⟨fun front empty => by simp [List.prefix_nil.mp empty], rfl⟩

/-- What begins with a mark is balanced if everything behind it is, with the mark counted in. -/
theorem cons_iff {mark : Mark} :
    Balanced depth (mark :: found) ↔
      (∀ front, front <+: found →
        (mark :: front).count .closing ≤ depth + (mark :: front).count .opening) ∧
      (mark :: found).count .closing = depth + (mark :: found).count .opening := by
  constructor
  · intro balanced
    refine ⟨fun front begins => balanced.within _ ?_, balanced.whole⟩
    exact (List.prefix_cons_inj mark).mpr begins
  · rintro ⟨within, whole⟩
    refine ⟨fun front begins => ?_, whole⟩
    obtain rfl | ⟨rest, rfl, continues⟩ := List.prefix_cons_iff.mp begins
    · exact Nat.zero_le _
    · exact within rest continues

theorem opening_iff : Balanced depth (.opening :: found) ↔ Balanced (depth + 1) found := by
  have one (front : List Mark) : depth + (front.count .opening + 1) =
      depth + 1 + front.count .opening := by omega
  rw [cons_iff]
  simp only [List.count_cons_self, List.count_cons_of_ne (by decide : Mark.opening ≠ .closing), one]
  exact ⟨fun ⟨within, whole⟩ => ⟨within, whole⟩, fun ⟨within, whole⟩ => ⟨within, whole⟩⟩

theorem closing_iff : Balanced (depth + 1) (.closing :: found) ↔ Balanced depth found := by
  have one (front : List Mark) : depth + 1 + front.count .opening =
      depth + front.count .opening + 1 := by omega
  rw [cons_iff]
  simp only [List.count_cons_self, List.count_cons_of_ne (by decide : Mark.closing ≠ .opening), one,
    Nat.add_le_add_iff_right, Nat.add_right_cancel_iff]
  exact ⟨fun ⟨within, whole⟩ => ⟨within, whole⟩, fun ⟨within, whole⟩ => ⟨within, whole⟩⟩

/-- Nothing can be closed before anything is open. -/
theorem not_closing : ¬Balanced 0 (.closing :: found) := by
  intro balanced
  have first := balanced.within [.closing] (by simp)
  exact absurd first (by decide)

end Balanced

/-! ## Marks of texts -/

/-- No mark is made where two texts meet. -/
structure Seamless (front back : List Char) : Prop where
  opens : front.getLast? = some '\x7b' → back.head? ≠ some '-'
  closes : front.getLast? = some '-' → back.head? ≠ some '\x7d'

section Seams

variable {c : Char} {rest front back : List Char}

namespace Seamless

/-- A text that ends in no first character of a mark. -/
theorem of_last (last : front.getLast? ≠ some '\x7b' ∧ front.getLast? ≠ some '-') :
    Seamless front back :=
  ⟨fun same => absurd same last.1, fun same => absurd same last.2⟩

/-- A text that begins with no second character of a mark. -/
theorem of_head (head : back.head? ≠ some '-' ∧ back.head? ≠ some '\x7d') :
    Seamless front back :=
  ⟨fun _ => head.1, fun _ => head.2⟩

/-- A text without first characters of marks. -/
theorem of_plain (plain : ∀ c ∈ front, c ≠ '\x7b' ∧ c ≠ '-') : Seamless front back :=
  of_last ⟨fun last => (plain _ (List.mem_of_getLast? last)).1 rfl,
    fun last => (plain _ (List.mem_of_getLast? last)).2 rfl⟩

theorem append_left {last : List Char} (seamless : Seamless last back) (nonempty : last ≠ [])
    (front : List Char) : Seamless (front ++ last) back := by
  have ends := List.getLast?_append_of_ne_nil front nonempty
  exact ⟨fun same => seamless.opens (ends ▸ same), fun same => seamless.closes (ends ▸ same)⟩

/-- Only the end of the first text matters. -/
theorem tail (seamless : Seamless (c :: front) back) : Seamless front back := by
  have ends {last : Char} (same : front.getLast? = some last) :
      (c :: front).getLast? = some last := by
    rw [List.getLast?_cons, same, Option.getD_some]
  exact ⟨fun same => seamless.opens (ends same), fun same => seamless.closes (ends same)⟩

/-- A character makes no mark with what follows it, if it is not the first one of a mark there. -/
theorem of_not_mark (opens : ∀ others, c = '\x7b' → rest = '-' :: others → False)
    (closes : ∀ others, c = '-' → rest = '\x7d' :: others → False) : Seamless [c] rest := by
  constructor
  · intro first second
    obtain ⟨others, rfl⟩ := List.head?_eq_some_iff.mp second
    exact opens others (by simpa using first) rfl
  · intro first second
    obtain ⟨others, rfl⟩ := List.head?_eq_some_iff.mp second
    exact closes others (by simpa using first) rfl

/-- A character makes no mark with what follows it, nor if more follows. -/
theorem append (seamless : Seamless [c] rest) (ends : Seamless (c :: rest) back) :
    Seamless [c] (rest ++ back) := by
  cases rest with
  | nil => exact ends
  | cons next others => exact ⟨seamless.opens, seamless.closes⟩

end Seamless

theorem marks_cons (seamless : Seamless [c] rest) : marks (c :: rest) = marks rest := by
  refine marks.eq_4 c rest ?_ ?_
  · rintro others rfl rfl
    exact seamless.opens rfl rfl
  · rintro others rfl rfl
    exact seamless.closes rfl rfl

theorem afterComments_cons (depth : ℕ) (seamless : Seamless [c] rest) :
    afterComments (depth + 1) (c :: rest) = afterComments (depth + 1) rest := by
  refine afterComments.eq_5 depth c rest ?_ ?_
  · rintro others rfl rfl
    exact seamless.opens rfl rfl
  · rintro others rfl rfl
    exact seamless.closes rfl rfl

/-- Texts have the marks of their parts, if none is made where the parts meet. -/
theorem marks_append (seamless : Seamless front back) :
    marks (front ++ back) = marks front ++ marks back := by
  -- Marks are two characters long, so what matters at a character is what follows it. At the last
  -- one of the front this is the back, where the texts are seamless.
  induction front using marks.induct with
  | case1 => rfl
  | case2 rest ih => simp [marks, ih seamless.tail.tail]
  | case3 rest ih => simp [marks, ih seamless.tail.tail]
  | case4 c rest noOpening noClosing ih =>
    have own := Seamless.of_not_mark noOpening noClosing
    rw [List.cons_append, marks_cons (own.append seamless), ih seamless.tail, marks_cons own]

/-- A text without first characters of marks has none. -/
theorem marks_of_plain (plain : ∀ c ∈ front, c ≠ '\x7b' ∧ c ≠ '-') : marks front = [] := by
  induction front with
  | nil => rfl
  | cons c rest ih =>
    obtain ⟨first, others⟩ := List.forall_mem_cons.mp plain
    rw [marks_cons (.of_last (by simpa using first)), ih others]

end Seams

/-- A comment is closed at the end of a text, and not before, exactly if the marks inside are
balanced. -/
theorem afterComments_eq_iff {body : List Char} (seamless : Seamless body ['-', '\x7d'])
    (depth : ℕ) :
    afterComments (depth + 1) (body ++ ['-', '\x7d']) = some [] ↔ Balanced depth (marks body) := by
  -- The body is read mark by mark. Each one changes how many comments are open, and so do the
  -- marks that it leaves to be balanced.
  induction body using marks.induct generalizing depth with
  | case1 =>
    -- Only the closing mark is left, which closes one comment.
    rw [marks, Balanced.nil_iff]
    cases depth <;> simp [afterComments]
  | case2 rest ih =>
    rw [marks, Balanced.opening_iff, ← ih seamless.tail.tail]
    rfl
  | case3 rest ih =>
    rw [marks]
    cases depth with
    | zero =>
      -- The comment is closed here, and the text goes on.
      refine iff_of_false ?_ Balanced.not_closing
      simp [afterComments]
    | succ depth =>
      rw [Balanced.closing_iff, ← ih seamless.tail.tail]
      rfl
  | case4 c rest noOpening noClosing ih =>
    have own := Seamless.of_not_mark noOpening noClosing
    rw [List.cons_append, afterComments_cons depth (own.append seamless), marks_cons own,
      ih seamless.tail]

/-! ## Documentation -/

/-- Letters and digits are no part of marks. -/
theorem plain_of_isAlphanumeric {text : String} (alphanumeric : IsAlphanumeric text) :
    ∀ c ∈ text.toList, c ≠ '\x7b' ∧ c ≠ '-' := by
  intro c inside
  constructor <;> rintro rfl <;> exact absurd (alphanumeric _ inside) (by decide)

/-- The line of documentation for a constructor and a wire string. -/
def docLine (variant : String × String) : String :=
  "  - `" ++ variant.1 ++ "` is sent as `" ++ variant.2 ++ "`\n"

/-- What the documentation of a union says between the marks that the template brings. -/
def docInside (type : String) (variants : List (String × String)) : String :=
  "| The " ++ type ++ " enumeration.\n\n" ++ concat (variants.map docLine) ++ "\n"

/-- The newline at the end of the template is all that is dropped from it. -/
theorem unionDoc_eq (type : String) (variants : List (String × String)) :
    unionDoc type variants = "\x7b-" ++ docInside type variants ++ "-\x7d" := by
  -- What is left after the newline ends in a brace, so nothing else is dropped.
  have template : unionDoc type variants = dropNewlines ("\x7b-| The " ++ type ++
      " enumeration.\n\n" ++ concat (variants.map docLine) ++ "\n-\x7d\n") := rfl
  have characters : ("\x7b-| The " ++ type ++ " enumeration.\n\n" ++
      concat (variants.map docLine) ++ "\n-\x7d\n").toList =
      ("\x7b-" ++ docInside type variants ++ "-").toList ++ ['\x7d'] ++ ['\n'] := by
    simp [docInside]
  have ending : ("\x7b-" ++ docInside type variants ++ "-\x7d").toList =
      ("\x7b-" ++ docInside type variants ++ "-").toList ++ ['\x7d'] := by
    simp
  rw [← String.toList_inj, template, toList_dropNewlines, characters, ending,
    List.rdropWhile_concat_pos _ _ _ (by simp), List.rdropWhile_concat_neg _ _ _ (by simp)]

/-- The marks of a line of documentation are those of the wire string. -/
theorem marks_docLine {variant : String × String} (named : IsAlphanumeric variant.1) :
    marks (docLine variant).toList = marks variant.2.toList := by
  have plain := plain_of_isAlphanumeric named
  -- The wire string stands between quotes, so it makes no mark with the template.
  simp only [docLine, String.toList_append, List.append_assoc]
  rw [marks_append (.of_last (by decide)), marks_append (.of_plain plain),
    marks_append (.of_last (by decide)), marks_append (.of_head (by decide)),
    marks_of_plain plain]
  simp [marks]

theorem seamless_docLine (variant : String × String) (back : List Char) :
    Seamless (docLine variant).toList back := by
  rw [docLine, String.toList_append]
  exact (Seamless.of_last (by decide)).append_left (by decide) _

/-- The marks inside of documentation are those of the wire strings. -/
theorem marks_docInside {type : String} (typed : IsAlphanumeric type)
    {variants : List (String × String)} (named : ∀ variant ∈ variants, IsAlphanumeric variant.1) :
    marks (docInside type variants).toList =
      variants.flatMap fun variant => marks variant.2.toList := by
  have lines : marks (concat (variants.map docLine)).toList =
      variants.flatMap fun variant => marks variant.2.toList := by
    rw [toList_concat]
    induction variants with
    | nil => rfl
    | cons variant rest ih =>
      obtain ⟨first, others⟩ := List.forall_mem_cons.mp named
      rw [List.map_cons, List.flatMap_cons, marks_append (seamless_docLine variant _),
        marks_docLine first, ih others, List.flatMap_cons]
  have plain := plain_of_isAlphanumeric typed
  simp only [docInside, String.toList_append, List.append_assoc]
  rw [marks_append (.of_last (by decide)), marks_append (.of_plain plain),
    marks_append (.of_last (by decide)), marks_append (.of_head (by decide)),
    marks_of_plain plain, lines]
  simp [marks]

/-- The documentation of a union is one comment exactly if the marks in its wire strings, taken
together, are balanced. -/
theorem isComment_unionDoc_iff {type : String} (typed : IsAlphanumeric type)
    {variants : List (String × String)} (named : ∀ variant ∈ variants, IsAlphanumeric variant.1) :
    IsComment (unionDoc type variants) ↔
      Balanced 0 (variants.flatMap fun variant => marks variant.2.toList) := by
  have ends : Seamless (docInside type variants).toList ['-', '\x7d'] := by
    rw [docInside, String.toList_append]
    exact (Seamless.of_last (by decide)).append_left (by decide) _
  rw [← marks_docInside typed named, ← afterComments_eq_iff ends, IsComment, unionDoc_eq]
  simp

/-- A wire string that closes the comment: the rest of it is left outside. -/
example : afterComments 1 (docInside "Mood" [("MoodAB", "a-\x7db")] ++ "-\x7d").toList =
    some "b`\n\n-\x7d".toList := by decide

end ElmBindgen.Elm
