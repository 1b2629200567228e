import ElmBindgen.Proofs.Elm.Innermost
import ElmBindgen.Proofs.Elm.Opening

/-!
# Names and first lines of sources

Shapes with alphanumeric names have types and decoders with alphanumeric names, which
are words of the fragments that refer to them. The first line of a decoder gives its name
and its type.

## Main definitions

* `Elm.firstLine`: the first line of a source text

## Main results

* `Elm.isWord_named`: the type and the decoder for an alphanumeric name are words
* `Elm.Definition.firstLine_render`: the first line of a rendered decoder
-/

namespace ElmBindgen.Elm

/-! ## Names -/

/-- A text of ASCII letters and digits. -/
def IsAlphanumeric (text : String) : Prop := ∀ c ∈ text.toList, c.isAlphanum

instance (text : String) : Decidable (IsAlphanumeric text) :=
  decidable_of_iff (text.toList.all Char.isAlphanum) List.all_eq_true

theorem toNat_lt_of_isAlphanum {c : Char} (alphanumeric : c.isAlphanum) : c.toNat < 128 := by
  have ranges : ((decide (65 ≤ c.val ∧ c.val ≤ 90) ||
      (decide (97 ≤ c.val) && decide (c.val ≤ 122))) ||
      (decide (48 ≤ c.val) && decide (c.val ≤ 57))) = true := alphanumeric
  simp only [Bool.or_eq_true, Bool.and_eq_true, decide_eq_true_eq,
    UInt32.le_iff_toNat_le] at ranges
  change c.val.toNat < 128
  have bounds : (90 : UInt32).toNat = 90 ∧ (122 : UInt32).toNat = 122 ∧ (57 : UInt32).toNat = 57 :=
    ⟨rfl, rfl, rfl⟩
  omega

/-- What holds of all ASCII characters holds of letters and digits. There are few of them, so
`all` can be decided. -/
theorem of_isAlphanum (holds : Char → Prop) (all : ∀ n < 128, holds (Char.ofNat n)) {c : Char}
    (alphanumeric : c.isAlphanum) : holds c := by
  have own := all c.toNat (toNat_lt_of_isAlphanum alphanumeric)
  rwa [Char.ofNat_toNat] at own

/-- The case mappings take an ASCII letter or digit to one. -/
theorem isAlphanum_case {c : Char} (alphanumeric : c.isAlphanum) :
    c.toUpper.isAlphanum ∧ c.toLower.isAlphanum :=
  of_isAlphanum (fun c => c.isAlphanum → c.toUpper.isAlphanum ∧ c.toLower.isAlphanum)
    (by decide +kernel) alphanumeric alphanumeric

section Letters

variable {cs : List Char}

/-- Among letters and digits the case of the first one is changed alone. -/
theorem capitalize_of_letters (letters : ∀ c ∈ cs, c.isAlphanum) :
    capitalize cs = cs.modifyHead Char.toUpper := by
  cases cs with
  | nil => rfl
  | cons first rest =>
    have ascii := toNat_lt_of_isAlphanum (letters first List.mem_cons_self)
    rw [capitalize, Text.upperChar, if_pos ascii]
    rfl

theorem uncapitalize_of_letters (letters : ∀ c ∈ cs, c.isAlphanum) :
    uncapitalize cs = cs.modifyHead Char.toLower := by
  cases cs with
  | nil => rfl
  | cons first rest =>
    have ascii := toNat_lt_of_isAlphanum (letters first List.mem_cons_self)
    rw [uncapitalize, Text.lowerChar, if_pos ascii]
    rfl

theorem isAlphanum_modifyHead (letters : ∀ c ∈ cs, c.isAlphanum) {change : Char → Char}
    (keeps : ∀ c, c.isAlphanum → (change c).isAlphanum) :
    ∀ c ∈ cs.modifyHead change, c.isAlphanum := by
  cases cs with
  | nil => simp
  | cons first rest =>
    obtain ⟨letter, others⟩ := List.forall_mem_cons.mp letters
    exact List.forall_mem_cons.mpr ⟨keeps first letter, others⟩

end Letters

section Alphanumeric

variable {name : String}

theorem toList_typeName (alphanumeric : IsAlphanumeric name) :
    (typeName name).toList = name.toList.modifyHead Char.toUpper := by
  rw [typeName, String.toList_ofList, capitalize_of_letters alphanumeric]

theorem toList_decoderName (alphanumeric : IsAlphanumeric name) :
    (decoderName name).toList = name.toList.modifyHead Char.toLower ++ "Decoder".toList := by
  rw [decoderName, String.toList_ofList, uncapitalize_of_letters alphanumeric]

theorem isAlphanumeric_typeName (alphanumeric : IsAlphanumeric name) :
    IsAlphanumeric (typeName name) := by
  rw [IsAlphanumeric, toList_typeName alphanumeric]
  exact isAlphanum_modifyHead alphanumeric fun _ letter => (isAlphanum_case letter).1

theorem isAlphanumeric_decoderName (alphanumeric : IsAlphanumeric name) :
    IsAlphanumeric (decoderName name) := by
  rw [IsAlphanumeric, toList_decoderName alphanumeric]
  have letters : IsAlphanumeric "Decoder" := by decide
  refine List.forall_mem_append.mpr ⟨?_, letters⟩
  exact isAlphanum_modifyHead alphanumeric fun _ letter => (isAlphanum_case letter).2

end Alphanumeric

/-- Every character has an upper case. -/
theorem upperChar_ne_nil (c : Char) : Text.upperChar c ≠ [] := by
  have expands : ∀ entry ∈ Text.upperExpansions, entry.2 ≠ [] := by decide
  unfold Text.upperChar
  split
  · simp
  · unfold Text.mapCase
    split
    · next codes found =>
      obtain ⟨before, after, parts, -⟩ := List.lookup_eq_some_iff.mp found
      have listed : (c.toNat, codes) ∈ Text.upperExpansions := by simp [parts]
      simpa using expands _ listed
    · split <;> simp

theorem typeName_ne_empty {name : String} (nonempty : name ≠ "") : typeName name ≠ "" := by
  intro empty
  have none := String.ofList_eq_empty_iff.mp empty
  cases cs : name.toList with
  | nil => exact nonempty (String.toList_eq_nil_iff.mp cs)
  | cons first rest =>
    rw [cs, capitalize] at none
    exact upperChar_ne_nil first (List.append_eq_nil_iff.mp none).1

theorem decoderName_ne_empty (type : String) : decoderName type ≠ "" := by
  intro empty
  have none := String.ofList_eq_empty_iff.mp empty
  exact absurd (List.append_eq_nil_iff.mp none).2 (by decide)

theorem IsAlphanumeric.isWord {text : String} (alphanumeric : IsAlphanumeric text) :
    IsWord text := by
  intro c here
  have letter := alphanumeric c here
  constructor
  · rw [opensWord, decide_eq_false_iff_not]
    rintro (rfl | rfl) <;> exact absurd letter (by decide)
  · rintro rfl
    exact absurd letter (by decide)

theorem isWord_named {name : String} (alphanumeric : IsAlphanumeric name) :
    IsWord (Fragment.named name).type ∧ IsWord (Fragment.named name).decoder :=
  have type := isAlphanumeric_typeName alphanumeric
  ⟨type.isWord, (isAlphanumeric_decoderName type).isWord⟩

theorem isWord_primitive {type : String} {fragment : Fragment}
    (known : Fragment.primitive? type = some fragment) :
    IsWord fragment.type ∧ IsWord fragment.decoder := by
  unfold Fragment.primitive? at known
  split at known <;> cases known <;> decide

/-! ## First lines -/

/-- The first line of a source text. -/
def firstLine (source : String) : String :=
  String.ofList (source.toList.takeWhile (· ≠ '\n'))

/-- The line that a text opens with is its first line, if it is one line. -/
theorem firstLine_of_opens {line source : String} (single : '\n' ∉ line.toList)
    (opens : Opens line source) : firstLine source = line := by
  have visible : ∀ c ∈ line.toList, decide (c ≠ '\n') := fun c here =>
    decide_eq_true fun same => single (same ▸ here)
  have whole : (dropNewlines line).toList = line.toList := by
    rw [toList_dropNewlines, List.rdropWhile_eq_self_iff]
    intro nonempty
    simpa using visible _ (List.getLast_mem nonempty)
  obtain ⟨rest, parts⟩ := opens
  have first : (source ++ "\n").toList.takeWhile (· ≠ '\n') = line.toList := by
    rw [← parts, String.toList_append, whole, List.append_assoc,
      List.takeWhile_append_of_pos visible]
    simp
  -- The newline behind the source is not taken, whether or not all of the source is.
  rw [firstLine, ← String.toList_inj, String.toList_ofList, ← first, String.toList_append,
    List.takeWhile_append]
  split
  · next all =>
    rw [(List.takeWhile_prefix _).eq_of_length all]
    simp
  · rfl

/-- The decoder of a definition with an alphanumeric type starts with its own name and
its type. -/
theorem Definition.firstLine_render {definition : Definition}
    (alphanumeric : IsAlphanumeric definition.type) :
    ∃ source, definition.render.decoderDef = some source ∧
      firstLine source =
        decoderName definition.type ++ " : JD.Decoder " ++ definition.type := by
  -- Neither the name nor the type ends the first line.
  have single : '\n' ∉ (decoderName definition.type ++ " : JD.Decoder " ++
      definition.type).toList := by
    intro here
    simp only [String.toList_append, List.mem_append] at here
    rcases here with (here | here) | here
    · exact absurd (isAlphanumeric_decoderName alphanumeric _ here) (by decide)
    · exact absurd here (by decide)
    · exact absurd (alphanumeric _ here) (by decide)
  refine ⟨definition.decoderSource, by rw [definition.render_eq], ?_⟩
  exact firstLine_of_opens single definition.opens_decoderSource

end ElmBindgen.Elm
