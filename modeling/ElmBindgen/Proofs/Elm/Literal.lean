import Mathlib.Algebra.Ring.Parity
import Mathlib.Data.List.DropRight
import ElmBindgen.Elm.Quoted

/-!
# Reading string literals

A literal is read from its opening quote on: a backslash stands for the character behind it, and
the first quote that does not stand behind one closes the literal. So the literal of a text gives
the text back, and leaves what follows it.

Which quotes are escaped is a matter of the backslashes right before them: they go together in
pairs, so a quote is escaped if they are odd in number. In the literal of a text all quotes are
escaped but the first and the last.

## Main definitions

* `Elm.backslashed`: one of the two passes that escape a text
* `Elm.readInside`, `Elm.readLiteral`: reading a literal off the front of a text
* `Elm.Escapes`: texts that escape what stands behind them
* `Elm.IsInside`, `Elm.unescape`: what can stand inside a literal, and what it stands for

## Main results

* `Elm.backslashed_swap_iff`: the order of the two passes matters
* `Elm.readLiteral_quote`: what is read from the literal of a text
* `Elm.readLiteral_eq_some_iff`: a literal ends at its first quote that is not escaped
* `Elm.quote_delimits`: the literal of a text ends where it should, whatever stands in the text
-/

namespace ElmBindgen.Elm

variable {cs front back rest : List Char} {c : Char}

/-! ## Escaping in two passes -/

/-- A text with a backslash before each `c`. -/
def backslashed (c : Char) (cs : List Char) : List Char :=
  cs.flatMap fun d => if d = c then ['\\', d] else [d]

/-- A text is escaped in two passes, of which the first is for the backslashes. -/
theorem escape_eq_backslashed (cs : List Char) :
    escape cs = backslashed '"' (backslashed '\\' cs) := by
  rw [escape, backslashed, backslashed, List.flatMap_assoc]
  congr 1
  funext c
  by_cases backslash : c = '\\'
  · simp [escapeChar, backslash]
  · by_cases quote : c = '"' <;> simp [escapeChar, backslash, quote]

theorem backslashed_of_not_mem (absent : c ∉ cs) : backslashed c cs = cs := by
  induction cs with
  | nil => rfl
  | cons head cs ih =>
    obtain ⟨own, others⟩ := List.ne_and_not_mem_of_not_mem_cons absent
    rw [backslashed, List.flatMap_cons, if_neg (Ne.symm own), ← backslashed, ih others]
    rfl

theorem count_backslashed (c d : Char) (cs : List Char) :
    (backslashed c cs).count d = cs.count d + if d = '\\' then cs.count c else 0 := by
  induction cs with
  | nil => simp [backslashed]
  | cons head cs ih =>
    rw [backslashed, List.flatMap_cons, ← backslashed, List.count_append, ih]
    -- The character may get a backslash, and backslashes may be what is counted.
    split <;> split <;> grind

/-- Only backslashes become more. -/
theorem count_escape (c : Char) (cs : List Char) :
    (escape cs).count c =
      cs.count c + if c = '\\' then cs.count '\\' + cs.count '"' else 0 := by
  simp only [escape_eq_backslashed, count_backslashed, if_neg (by decide : '"' ≠ '\\')]
  split <;> omega

/-- In the other order, the backslashes before the quotes would be doubled as well. -/
theorem backslashed_swap_iff (cs : List Char) :
    backslashed '\\' (backslashed '"' cs) = escape cs ↔ '"' ∉ cs := by
  constructor
  · intro same
    have backslashes := congrArg (List.count '\\') same
    simp only [count_backslashed, count_escape, if_true] at backslashes
    exact List.count_eq_zero.mp (by omega)
  · intro absent
    have plain : '"' ∉ backslashed '\\' cs := by
      rw [← List.count_eq_zero, count_backslashed, if_neg (by decide),
        List.count_eq_zero.mpr absent]
    rw [escape_eq_backslashed, backslashed_of_not_mem absent, backslashed_of_not_mem plain]

/-! ## Reading -/

/-- Reads the inside of a literal up to the quote that closes it, and gives what follows. -/
def readInside : List Char → Option (List Char × List Char)
  | [] => none
  | '"' :: rest => some ([], rest)
  | '\\' :: c :: rest => (readInside rest).map fun found => (c :: found.1, found.2)
  | c :: rest => (readInside rest).map fun found => (c :: found.1, found.2)

/-- Reads a literal off the front of a text, and gives what follows. -/
def readLiteral (text : String) : Option (String × String) :=
  match text.toList with
  | '"' :: rest =>
    (readInside rest).map fun found => (String.ofList found.1, String.ofList found.2)
  | _ => none

/-- A character that stands for itself is read as itself. -/
theorem readInside_cons (plain : c ≠ '\\' ∧ c ≠ '"') (rest : List Char) :
    readInside (c :: rest) = (readInside rest).map fun found => (c :: found.1, found.2) := by
  rw [readInside]
  · exact plain.2
  · exact fun _ _ backslash => absurd backslash plain.1

/-- An escaped character is read as the character. -/
theorem readInside_escapeChar (c : Char) (rest : List Char) :
    readInside (escapeChar c ++ rest) =
      (readInside rest).map fun found => (c :: found.1, found.2) := by
  unfold escapeChar
  split
  · rfl
  · next plain => exact readInside_cons (not_or.mp plain) rest

/-- The inside of a literal is read up to the quote behind it. -/
theorem readInside_escape (cs rest : List Char) :
    readInside (escape cs ++ '"' :: rest) = some (cs, rest) := by
  induction cs with
  | nil => rfl
  | cons c cs ih =>
    rw [escape, List.flatMap_cons, ← escape, List.append_assoc, readInside_escapeChar, ih]
    rfl

/-- The literal of a text gives the text back, whatever follows. -/
theorem readLiteral_quote (text rest : String) :
    readLiteral (quote text ++ rest) = some (text, rest) := by
  have characters : (quote text ++ rest).toList =
      '"' :: (escape text.toList ++ '"' :: rest.toList) := by
    simp [quote]
  simp [readLiteral, characters, readInside_escape]

example : readLiteral "\"say \\\"hi\\\"\" -> \"" = some ("say \"hi\"", " -> \"") := by decide

/-! ## Escaped characters -/

/-- A text escapes what stands behind it if the backslashes at its end are odd in number. -/
def Escapes (front : List Char) : Prop := Odd (front.rtakeWhile (· = '\\')).length

instance (front : List Char) : Decidable (Escapes front) := inferInstanceAs (Decidable (Odd _))

theorem not_escapes_nil : ¬Escapes [] := by decide

/-- Only a backslash escapes, and only if it is not escaped itself. -/
theorem escapes_concat (front : List Char) (c : Char) :
    Escapes (front ++ [c]) ↔ c = '\\' ∧ ¬Escapes front := by
  rw [Escapes, List.rtakeWhile_concat]
  by_cases backslash : c = '\\'
  · simp [backslash, Escapes, Nat.odd_add_one]
  · simp [backslash]

/-- What does not escape has no say in what is escaped behind it. -/
theorem escapes_append (ends : ¬Escapes front) (back : List Char) :
    Escapes (front ++ back) ↔ Escapes back := by
  induction back using List.reverseRecOn with
  | nil => simpa [not_escapes_nil] using ends
  | append_singleton back c ih => rw [← List.append_assoc, escapes_concat, escapes_concat, ih]

/-- What can stand inside a literal: each quote in it is escaped, and the quote behind it, which
closes the literal, is not. -/
structure IsInside (cs : List Char) : Prop where
  escaped : ∀ front back, cs = front ++ '"' :: back → Escapes front
  ends : ¬Escapes cs

namespace IsInside

theorem nil : IsInside [] := ⟨by simp, not_escapes_nil⟩

/-- A backslash and the character behind it. -/
theorem pair (c : Char) : IsInside ['\\', c] := by
  have backslash : Escapes ['\\'] := by decide
  refine ⟨fun front back parts => ?_, fun escapes => ?_⟩
  · rcases front with - | ⟨first, - | ⟨second, front⟩⟩
    · exact absurd (List.cons_eq_cons.mp parts).1 (by decide)
    · obtain ⟨rfl, -⟩ := List.cons_eq_cons.mp parts
      exact backslash
    · simp at parts
  · exact ((escapes_concat ['\\'] c).mp escapes).2 backslash

/-- A character that stands for itself. -/
theorem single (plain : c ≠ '\\' ∧ c ≠ '"') : IsInside [c] := by
  refine ⟨fun front back parts => ?_, fun escapes => ?_⟩
  · cases front with
    | nil => exact absurd (List.cons_eq_cons.mp parts).1 plain.2
    | cons first front => simp at parts
  · exact plain.1 ((escapes_concat [] c).mp escapes).1

theorem append (first : IsInside front) (second : IsInside back) : IsInside (front ++ back) := by
  refine ⟨fun before behind parts => ?_, fun escapes => ?_⟩
  -- The quote stands in one of the two parts.
  · rcases List.append_eq_append_iff.mp parts with ⟨own, rfl, own_eq⟩ | ⟨own, rfl, own_eq⟩
    · rw [escapes_append first.ends]
      exact second.escaped own behind own_eq
    · cases own with
      | nil => exact absurd (second.escaped [] behind own_eq.symm) not_escapes_nil
      | cons head own =>
        obtain ⟨rfl, -⟩ := List.cons_eq_cons.mp own_eq
        exact first.escaped before own rfl
  · exact second.ends ((escapes_append first.ends back).mp escapes)

/-- What follows something that escapes nothing. -/
theorem right (whole : IsInside (front ++ back)) (ends : ¬Escapes front) : IsInside back := by
  refine ⟨fun before behind parts => ?_, fun escapes => ?_⟩
  · rw [← escapes_append ends]
    exact whole.escaped _ behind (by rw [parts, List.append_assoc])
  · exact whole.ends ((escapes_append ends back).mpr escapes)

end IsInside

/-- The inside of the literal of a text. -/
theorem isInside_escape (cs : List Char) : IsInside (escape cs) := by
  induction cs with
  | nil => exact .nil
  | cons c cs ih =>
    rw [escape, List.flatMap_cons, ← escape]
    refine IsInside.append ?_ ih
    unfold escapeChar
    split
    · exact .pair c
    · next plain => exact .single (not_or.mp plain)

/-! ## Where a literal ends -/

/-- What the inside of a literal stands for: each backslash gives way to the character behind it. -/
def unescape : List Char → List Char
  | [] => []
  | '\\' :: c :: rest => c :: unescape rest
  | c :: rest => c :: unescape rest

theorem unescape_cons (plain : c ≠ '\\') (rest : List Char) :
    unescape (c :: rest) = c :: unescape rest := by
  rw [unescape]
  exact fun _ _ backslash => absurd backslash plain

/-- What can stand inside a literal is read up to the quote behind it. -/
theorem IsInside.readInside_eq (inside : IsInside cs) (rest : List Char) :
    readInside (cs ++ '"' :: rest) = some (unescape cs, rest) := by
  fun_induction unescape cs with
  | case1 => rfl
  | case2 c more ih =>
    rw [List.cons_append, List.cons_append, readInside, ih (inside.right (IsInside.pair c).ends)]
    rfl
  | case3 c more alone ih =>
    -- A backslash would be the last character, and it would escape the quote that closes.
    have plain : c ≠ '\\' ∧ c ≠ '"' := by
      constructor
      · rintro rfl
        cases more with
        | nil => exact inside.ends (by decide)
        | cons head more => exact alone head more rfl rfl
      · rintro rfl
        exact not_escapes_nil (inside.escaped [] more rfl)
    rw [List.cons_append, readInside_cons plain, ih (inside.right (IsInside.single plain).ends)]
    rfl

/-- The inside of a literal is read up to the first quote that is not escaped. -/
theorem readInside_eq_some_iff {text : List Char} :
    readInside cs = some (text, rest) ↔
      ∃ inside, IsInside inside ∧ cs = inside ++ '"' :: rest ∧ unescape inside = text := by
  constructor
  · intro read
    fun_induction readInside cs generalizing text with
    | case1 => cases read
    | case2 more =>
      obtain ⟨⟩ := read
      exact ⟨[], .nil, rfl, rfl⟩
    | case3 c more ih =>
      obtain ⟨⟨found, left⟩, own, ⟨⟩⟩ := Option.map_eq_some_iff.mp read
      obtain ⟨inside, fits, rfl, rfl⟩ := ih own
      exact ⟨_, (IsInside.pair c).append fits, rfl, rfl⟩
    | case4 c more quote alone ih =>
      obtain ⟨⟨found, left⟩, own, ⟨⟩⟩ := Option.map_eq_some_iff.mp read
      -- Behind a last backslash nothing is left to be read.
      have plain : c ≠ '\\' := by
        rintro rfl
        cases more with
        | nil => cases own
        | cons head more => exact alone head more rfl rfl
      obtain ⟨inside, fits, rfl, rfl⟩ := ih own
      exact ⟨_, (IsInside.single ⟨plain, quote⟩).append fits, rfl, unescape_cons plain inside⟩
  · rintro ⟨inside, fits, rfl, rfl⟩
    exact fits.readInside_eq rest

/-- A literal goes from its opening quote to the first quote behind it that is not escaped. -/
theorem readLiteral_eq_some_iff {source text rest : String} :
    readLiteral source = some (text, rest) ↔
      ∃ inside, IsInside inside ∧ source.toList = '"' :: inside ++ '"' :: rest.toList ∧
        unescape inside = text.toList := by
  constructor
  · intro read
    unfold readLiteral at read
    split at read
    · next behind opened =>
      obtain ⟨⟨found, left⟩, own, ⟨⟩⟩ := Option.map_eq_some_iff.mp read
      obtain ⟨inside, fits, rfl, rfl⟩ := readInside_eq_some_iff.mp own
      exact ⟨inside, fits, by simp [opened], by simp⟩
    · cases read
  · rintro ⟨inside, fits, parts, text_eq⟩
    have read := fits.readInside_eq rest.toList
    simp [readLiteral, parts, read, text_eq]

/-! ## The literal of a text -/

section Quote

variable {text other rest more front back : String}

theorem quote_append_inj :
    quote text ++ rest = quote other ++ more ↔ text = other ∧ rest = more := by
  constructor
  · intro same
    have read := readLiteral_quote text rest
    rw [same, readLiteral_quote, Option.some.injEq, Prod.mk.injEq] at read
    exact ⟨read.1.symm, read.2.symm⟩
  · rintro ⟨rfl, rfl⟩
    rfl

theorem quote_injective : Function.Injective quote := fun _ _ same =>
  (quote_append_inj.mp (congrArg (· ++ "") same)).1

/-- What follows a literal has no say in it. -/
theorem readLiteral_append (read : readLiteral front = some (text, rest)) (more : String) :
    readLiteral (front ++ more) = some (text, rest ++ more) := by
  obtain ⟨inside, fits, parts, stands⟩ := readLiteral_eq_some_iff.mp read
  exact readLiteral_eq_some_iff.mpr ⟨inside, fits, by simp [parts], stands⟩

/-- The literal of a text is not over before its end. -/
theorem isSome_readLiteral_iff (parts : quote text = front ++ back) :
    (readLiteral front).isSome ↔ back = "" := by
  have whole : readLiteral (front ++ back) = some (text, "") := by
    simpa [parts] using readLiteral_quote text ""
  constructor
  · intro read
    obtain ⟨⟨found, left⟩, read⟩ := Option.isSome_iff_exists.mp read
    rw [readLiteral_append read, Option.some.injEq, Prod.mk.injEq] at whole
    exact (String.append_eq_empty_iff.mp whole.2).2
  · rintro rfl
    rw [String.append_empty] at whole
    rw [whole]
    rfl

/-- A quote behind the first one is escaped unless it is the last character. -/
theorem escapes_iff_of_quote (parts : quote text = "\"" ++ front ++ "\"" ++ back) :
    Escapes front.toList ↔ back ≠ "" := by
  have inside : escape text.toList ++ ['"'] = front.toList ++ '"' :: back.toList := by
    simpa [quote] using congrArg String.toList parts
  rw [ne_eq, ← String.toList_eq_nil_iff]
  rcases List.eq_nil_or_concat back.toList with last | ⟨behind, last, behind_eq⟩
  · rw [last] at inside
    obtain ⟨own, -⟩ := List.append_inj' inside rfl
    simpa [last, ← own] using (isInside_escape text.toList).ends
  · rw [behind_eq, List.concat_eq_append, ← List.cons_append, ← List.append_assoc] at inside
    obtain ⟨own, -⟩ := List.append_inj' inside rfl
    simpa [behind_eq] using (isInside_escape text.toList).escaped _ behind own

end Quote

/-- The literal of a text, made in two passes, gives the text back and leaves what follows. So texts
with the same literal are the same, even if more follows. Whatever stands in the text, no part of
the literal is read as a literal before the closing quote, since each quote up to there is
escaped. -/
theorem quote_delimits :
    (∀ text, (quote text).toList = '"' :: backslashed '"' (backslashed '\\' text.toList) ++ ['"']) ∧
      (∀ text rest, readLiteral (quote text ++ rest) = some (text, rest)) ∧
      Function.Injective quote ∧
      (∀ text other rest more,
        quote text ++ rest = quote other ++ more ↔ text = other ∧ rest = more) ∧
      (∀ text front back, quote text = front ++ back →
        ((readLiteral front).isSome ↔ back = "")) ∧
      ∀ text front back, quote text = "\"" ++ front ++ "\"" ++ back →
        (Escapes front.toList ↔ back ≠ "") := by
  refine ⟨fun text => ?_, readLiteral_quote, quote_injective, fun _ _ _ _ => quote_append_inj,
    fun _ _ _ => isSome_readLiteral_iff, fun _ _ _ => escapes_iff_of_quote⟩
  simp [quote, escape_eq_backslashed]

/-- A text with a backslash before a quote and another one at its end. -/
theorem quote_delimits_backslashes :
    quote "\\\"\\" = "\"\\\\\\\"" ++ "\\\\\"" ∧
      readLiteral (quote "\\\"\\" ++ "\" ->") = some ("\\\"\\", "\" ->") ∧
      ¬(readLiteral "\"\\\\\\\"").isSome ∧ Escapes "\\\\\\".toList ∧
      ¬Escapes "\\\\\\\"\\\\".toList := by
  have parts : quote "\\\"\\" = "\"\\\\\\\"" ++ "\\\\\"" := by decide
  have inner : quote "\\\"\\" = "\"" ++ "\\\\\\" ++ "\"" ++ "\\\\\"" := by decide
  have last : quote "\\\"\\" = "\"" ++ "\\\\\\\"\\\\" ++ "\"" ++ "" := by decide
  obtain ⟨-, reads, -, -, pieces, quotes⟩ := quote_delimits
  exact ⟨parts, reads _ _, (pieces _ _ _ parts).not.mpr (by decide),
    (quotes _ _ _ inner).mpr (by decide), (quotes _ _ _ last).not.mpr (by decide)⟩

end ElmBindgen.Elm
