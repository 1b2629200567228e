import ElmBindgen.Proofs.Elm.Opening
import ElmBindgen.Text.Case

/-!
# Lines of sources

Without its newlines at the end, a template is a row of lines with newlines between them. So what
the lines are made of can be read off them, as long as none of it holds a newline of its own.

## Main definitions

* `Elm.lines`, `Elm.unlines`: the lines of a text, and the text of some lines
* `Elm.itemTexts`: the lines of items, of which the first begins in another way
* `Elm.after?`, `Elm.before?`: what a text goes on with after a word, or begins with before it
* `Elm.readLine`: the first line of a text and what follows it
* `Elm.readItems`: the items that some lines are made of

## Main results

* `Elm.lines_dropNewlines`: the lines of a template
* `Elm.unionType_eq`, `Elm.recordType_eq`, `Elm.recordDecoder_eq`: templates as lines
* `Elm.readItems_itemTexts`: the lines of items give the items
* `Elm.isLine_decoderName`: the name of a decoder has no newlines but those of its type
-/

namespace ElmBindgen.Elm

/-! ## Lines -/

/-- A text of one line. -/
def IsLine (text : String) : Prop := '\n' ∉ text.toList

instance (text : String) : Decidable (IsLine text) :=
  inferInstanceAs (Decidable ('\n' ∉ text.toList))

theorem IsLine.append {front back : String} (first : IsLine front) (second : IsLine back) :
    IsLine (front ++ back) := by
  simp_all [IsLine]

/-- The lines of a text. -/
def lines (text : String) : List String := (text.toList.splitOn '\n').map String.ofList

/-- The text of some lines, each of which ends in a newline. -/
def unlines (texts : List String) : String := concat (texts.map (· ++ "\n"))

theorem toList_concat (parts : List String) :
    (concat parts).toList = parts.flatMap String.toList := by
  induction parts with
  | nil => rfl
  | cons part rest ih =>
    rw [concat, List.foldr_cons, ← concat, String.toList_append, ih, List.flatMap_cons]

theorem concat_append (front back : List String) :
    concat (front ++ back) = concat front ++ concat back := by
  rw [← String.toList_inj]
  simp [toList_concat]

theorem unlines_append (front back : List String) :
    unlines (front ++ back) = unlines front ++ unlines back := by
  rw [unlines, List.map_append, concat_append, ← unlines, ← unlines]

theorem unlines_cons (text : String) (rest : List String) :
    unlines (text :: rest) = text ++ "\n" ++ unlines rest := rfl

/-- The characters of some lines with newlines between them, as they come after each other. -/
theorem intercalate_concat (front : List (List Char)) (last : List Char) :
    ['\n'].intercalate (front ++ [last]) = front.flatMap (· ++ ['\n']) ++ last := by
  induction front with
  | nil => simp
  | cons line rest ih =>
    rw [List.cons_append, List.intercalate_cons_of_ne_nil (by simp), ih]
    simp

/-- The newline of the last of some lines is all that is dropped from them. -/
theorem toList_dropNewlines_unlines {last : String} (nonempty : last ≠ "") (single : IsLine last)
    (front : List String) :
    (dropNewlines (unlines (front ++ [last]))).toList =
      ['\n'].intercalate ((front ++ [last]).map String.toList) := by
  have whole : (unlines (front ++ [last])).toList =
      ((front.map String.toList).flatMap (· ++ ['\n']) ++ last.toList) ++ ['\n'] := by
    simp [unlines, toList_concat, List.flatMap_map]
  obtain ⟨init, c, ends⟩ : ∃ init c, last.toList = init ++ [c] :=
    ⟨_, _, (List.dropLast_append_getLast (by simpa using nonempty)).symm⟩
  have visible : c ≠ '\n' := by
    rintro rfl
    exact single (by simp [ends])
  rw [toList_dropNewlines, whole, List.rdropWhile_concat_pos _ _ _ (by simp), ends,
    ← List.append_assoc, List.rdropWhile_concat_neg _ _ _ (by simpa using visible),
    List.append_assoc, ← ends, ← intercalate_concat, List.map_append, List.map_singleton]

/-- A template has the lines that it is made of, none of which is empty. -/
theorem lines_dropNewlines {texts : List String} (some : texts ≠ [])
    (written : ∀ text ∈ texts, text ≠ "" ∧ IsLine text) :
    lines (dropNewlines (unlines texts)) = texts := by
  obtain ⟨front, last, rfl⟩ : ∃ front last, texts = front ++ [last] :=
    ⟨_, _, (List.dropLast_append_getLast some).symm⟩
  have inside : ∀ cs ∈ (front ++ [last]).map String.toList, '\n' ∉ cs :=
    List.forall_mem_map.mpr fun text here => (written text here).2
  obtain ⟨nonempty, single⟩ := written last (by simp)
  rw [lines, toList_dropNewlines_unlines nonempty single,
    List.splitOn_intercalate _ inside (by simp), List.map_map]
  simp

/-! ## Templates -/

/-- The lines of some items, the first of which begins in another way. -/
def itemTexts (first next : String) : List String → List String
  | [] => []
  | item :: rest =>
    ("    " ++ first ++ " " ++ item) :: rest.map fun item => "    " ++ next ++ " " ++ item

theorem itemLines_eq (first next : String) (items : List String) :
    itemLines first next items = unlines (itemTexts first next items) := by
  cases items with
  | nil => rfl
  | cons item rest => simp [itemLines, itemTexts, unlines, concat, Function.comp_def]

theorem unionType_eq (type : String) (names : List String) :
    unionType type names =
      dropNewlines (unlines (("type " ++ type) :: itemTexts "=" "|" names)) := by
  rw [unionType, itemLines_eq, unlines_cons]

theorem recordType_eq (type : String) (fields : List String) :
    recordType type fields = dropNewlines (unlines (("type alias " ++ type ++ " =") ::
      itemTexts "\x7b" "," fields ++ [if fields.isEmpty then "    \x7b\x7d" else "    \x7d"])) := by
  rw [recordType, itemLines_eq, List.cons_append, unlines_cons, unlines_append]
  cases fields with
  | nil => simp [unlines, concat, String.append_assoc]
  | cons field rest => simp [unlines, concat, String.append_assoc]

theorem recordDecoder_eq (decoder type : String) (steps : List String) :
    recordDecoder decoder type steps =
      dropNewlines (unlines ((decoder ++ " : JD.Decoder " ++ type) :: (decoder ++ " =") ::
        ("    JD.succeed " ++ type) :: steps.map ("        |> " ++ ·))) := by
  have ends : " =\n" = " =" ++ "\n" := rfl
  rw [recordDecoder, unlines_cons, unlines_cons, unlines_cons, unlines, List.map_map, ends]
  simp only [String.append_assoc, Function.comp_def]

/-- The first two lines of a decoder are lines if its name and its type are. -/
theorem isLine_decoderHeading {decoder type : String} (single : IsLine decoder)
    (typed : IsLine type) :
    IsLine (decoder ++ " : JD.Decoder " ++ type) ∧ IsLine (decoder ++ " =") :=
  ⟨.append (.append single (by decide)) typed, .append single (by decide)⟩

/-! ## Reading lines -/

/-- What a text goes on with after a word. -/
def after? (word text : String) : Option String :=
  if word.toList <+: text.toList then some (String.ofList (text.toList.drop word.toList.length))
  else none

@[simp] theorem after?_append (word rest : String) : after? word (word ++ rest) = some rest := by
  simp [after?]

/-- What a text begins with before a word at its end. -/
def before? (word text : String) : Option String :=
  if word.toList <:+ text.toList then
    some (String.ofList (text.toList.take (text.toList.length - word.toList.length)))
  else none

@[simp] theorem before?_append (word front : String) :
    before? word (front ++ word) = some front := by
  simp [before?]

/-- Reads a line off the front of a text, and gives what follows its newline. -/
def readLine (text : String) : Option (String × String) :=
  match text.toList.dropWhile (· ≠ '\n') with
  | _ :: rest => some (String.ofList (text.toList.takeWhile (· ≠ '\n')), String.ofList rest)
  | [] => none

theorem readLine_append {line : String} (single : IsLine line) (rest : String) :
    readLine (line ++ "\n" ++ rest) = some (line, rest) := by
  have visible : ∀ c ∈ line.toList, decide (c ≠ '\n') := fun c here =>
    decide_eq_true fun same => single (same ▸ here)
  have characters : (line ++ "\n" ++ rest).toList = line.toList ++ '\n' :: rest.toList := by simp
  rw [readLine, characters, List.dropWhile_append_of_pos visible,
    List.takeWhile_append_of_pos visible]
  simp

/-- What some lines go on with, the first of which begins in another way. -/
def readItems (first next : String) : List String → Option (List String)
  | [] => some []
  | line :: rest => do
    let item ← after? ("    " ++ first ++ " ") line
    return item :: (← rest.mapM (after? ("    " ++ next ++ " ")))

/-- If each of some texts is read, all of them are. -/
theorem mapM_read {α β : Type} {write : α → String} {read : String → Option β} {value : α → β}
    {xs : List α} (reads : ∀ x ∈ xs, read (write x) = some (value x)) :
    (xs.map write).mapM read = some (xs.map value) := by
  induction xs with
  | nil => rfl
  | cons x rest ih =>
    obtain ⟨first, others⟩ := List.forall_mem_cons.mp reads
    rw [List.map_cons, List.mapM_cons, first, ih others]
    rfl

/-- The lines of some items give the items. -/
theorem readItems_itemTexts (first next : String) (items : List String) :
    readItems first next (itemTexts first next items) = some items := by
  cases items with
  | nil => rfl
  | cons item rest =>
    have others : (rest.map fun item => "    " ++ next ++ " " ++ item).mapM
        (after? ("    " ++ next ++ " ")) = some (rest.map id) :=
      mapM_read fun item _ => after?_append _ item
    rw [List.map_id] at others
    rw [itemTexts, readItems, after?_append, others]
    rfl

/-- If items and what they begin with are lines, they make lines. -/
theorem written_itemTexts {first next : String} (plain : IsLine first) (plain' : IsLine next)
    {items : List String} (single : ∀ item ∈ items, IsLine item) :
    ∀ text ∈ itemTexts first next items, text ≠ "" ∧ IsLine text := by
  have begins {mark item : String} (plain : IsLine mark) (single : IsLine item) :
      "    " ++ mark ++ " " ++ item ≠ "" ∧ IsLine ("    " ++ mark ++ " " ++ item) := by
    refine ⟨by simp, ?_⟩
    simp_all [IsLine]
  cases items with
  | nil => simp [itemTexts]
  | cons item rest =>
    obtain ⟨head, others⟩ := List.forall_mem_cons.mp single
    refine List.forall_mem_cons.mpr ⟨begins plain head, List.forall_mem_map.mpr ?_⟩
    exact fun item listed => begins plain' (others item listed)

/-! ## Names of decoders -/

theorem eq_ten_of_ofNat {code : Nat} (newline : Char.ofNat code = '\n') : code = 10 := by
  by_cases valid : code.isValidChar
  · rw [Char.ofNat, dif_pos valid] at newline
    exact congrArg Char.toNat newline
  · rw [Char.ofNat, dif_neg valid] at newline
    exact absurd newline (by decide)

/-- No lower case is a newline but that of a newline. -/
theorem newline_not_mem_lowerChar {c : Char} (visible : c ≠ '\n') : '\n' ∉ Text.lowerChar c := by
  unfold Text.lowerChar
  split
  · next ascii =>
    have all : ∀ n < 128, Char.ofNat n ≠ '\n' → '\n' ≠ (Char.ofNat n).toLower := by
      decide +kernel
    have own := all c.toNat ascii
    rw [Char.ofNat_toNat] at own
    simpa using own visible
  · unfold Text.mapCase
    split
    · next codes found =>
      have expands : ∀ entry ∈ Text.lowerExpansions, '\n' ∉ entry.2.map Char.ofNat := by decide
      obtain ⟨before, after, parts, -⟩ := List.lookup_eq_some_iff.mp found
      exact expands (c.toNat, codes) (by simp [parts])
    · split
      · next run found =>
        -- A run never moves a character as far down as to the newline.
        have moves : ∀ run ∈ Text.lowerRuns, 10 < run.first + run.offset := by decide +kernel
        have far := moves run (List.mem_of_find?_eq_some found)
        have inside := List.find?_some found
        simp only [Text.CaseRun.contains, Bool.and_eq_true, decide_eq_true_eq] at inside
        rw [List.mem_singleton]
        intro newline
        have code := eq_ten_of_ofNat newline.symm
        omega
      · simpa using visible.symm

/-- The decoder of a type that is a line has a name that is one, too. -/
theorem isLine_decoderName {type : String} (single : IsLine type) : IsLine (decoderName type) := by
  rw [IsLine, decoderName, String.toList_ofList, List.mem_append]
  rintro (here | here)
  · unfold IsLine at single
    cases cs : type.toList with
    | nil => simp [cs, uncapitalize] at here
    | cons first rest =>
      rw [cs, List.mem_cons, not_or] at single
      rw [cs, uncapitalize, List.mem_append] at here
      exact here.elim (newline_not_mem_lowerChar (Ne.symm single.1)) single.2
  · exact absurd here (by decide)

end ElmBindgen.Elm
