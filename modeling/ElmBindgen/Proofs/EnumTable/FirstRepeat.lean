import ElmBindgen.Proofs.EnumTable.TwoWay
import Mathlib.Data.List.Induction
import Mathlib.Data.Nat.Find

/-!
# The first repetition is refused

A table is built from its values one after another. Each value is looked for among those before it,
and then its wire form among theirs. So a list is refused exactly if a value repeats another, or a
wire form does, and what is reported is what stands at the first position where either is repeated:
the value if it is the value, and the wire form otherwise. An item repeats what it is identical or
equal to.

## Main definitions

* `Item.RepeatedAt`: the item at a position is identical or equal to an earlier one
* `EnumTable.Hashed`: values and wire forms that can be looked up
* `EnumTable.valueItems`, `EnumTable.wireItems`: what is compared, in order
* `EnumTable.ofWires`: the table of some values with their wire forms
* `EnumTable.FirstRepeat`: the first position with a repetition, and what is repeated there

## Main results

* `EnumTable.any_ofWires`: what is found among the values before it is a repetition
* `EnumTable.add_ofWires`: one more value is added unless it is a repetition
* `EnumTable.ofList_fresh`: a list without repetitions makes a table
* `EnumTable.ofList_firstRepeat`: a list is refused for its first repetition
* `EnumTable.ofList_repeats`: which lists are refused, and what for
-/

namespace ElmBindgen

namespace Item

/-- The item at a position is identical or equal to an earlier one. -/
def RepeatedAt (items : List Item) (i : Nat) : Prop :=
  ∃ item ∈ items[i]?, ∃ earlier ∈ items.take i, item.same earlier

instance (items : List Item) (i : Nat) : Decidable (RepeatedAt items i) :=
  decidable_of_iff ((items[i]?).any fun item => (items.take i).any item.same) (by
    simp only [RepeatedAt, Option.any_eq_true_iff_get, List.any_eq_true]
    grind)

theorem RepeatedAt.lt_length {items : List Item} {i : Nat} (repeated : RepeatedAt items i) :
    i < items.length := by
  obtain ⟨item, here, -⟩ := repeated
  exact (List.getElem?_eq_some_iff.mp here).1

/-- What is a repetition stays one, whatever comes behind. -/
theorem RepeatedAt.append {front : List Item} {i : Nat} (repeated : RepeatedAt front i)
    (back : List Item) : RepeatedAt (front ++ back) i := by
  have inside := repeated.lt_length
  rwa [RepeatedAt, List.getElem?_append_left inside,
    List.take_append_of_le_length (Nat.le_of_lt inside)]

/-- Behind some items another one is a repetition if it is identical or equal to one of them. -/
theorem repeatedAt_length (front back : List Item) (item : Item) :
    RepeatedAt (front ++ item :: back) front.length ↔ ∃ earlier ∈ front, item.same earlier := by
  simp [RepeatedAt]

end Item

namespace EnumTable

variable {α ω : Type} [Lookup α] [Lookup ω]

/-! ## Adding values -/

variable {serialize : α → Except Fault ω} {wire : α → ω} {values done rest : List α} {value : α}

/-- Values that can be looked up, with wire forms that can be looked up. -/
structure Hashed (serialize : α → Except Fault ω) (wire : α → ω) (values : List α) : Prop where
  value : ∀ value ∈ values, (Lookup.item value).isHashable
  serialized : ∀ value ∈ values, serialize value = .ok (wire value)
  wireForm : ∀ value ∈ values, (Lookup.item (wire value)).isHashable

theorem Hashed.subset (hashed : Hashed serialize wire values) (part : done ⊆ values) :
    Hashed serialize wire done where
  value _ here := hashed.value _ (part here)
  serialized _ here := hashed.serialized _ (part here)
  wireForm _ here := hashed.wireForm _ (part here)

/-- The values as items. -/
def valueItems (values : List α) : List Item := values.map Lookup.item

/-- The wire forms as items. -/
def wireItems (wire : α → ω) (values : List α) : List Item :=
  values.map fun value => Lookup.item (wire value)

/-- The table of some values with their wire forms. -/
def ofWires (wire : α → ω) (values : List α) : EnumTable α ω :=
  ⟨values.map fun value => (value, wire value)⟩

/-- A value is refused if it is in the table, then if its wire form is, and added otherwise. -/
theorem add_eq {table : EnumTable α ω} {known knownWire : Bool} {own : ω}
    (looked : table.contains (Lookup.item value) = .ok known)
    (serialized : serialize value = .ok own)
    (lookedWire : table.containsWire (Lookup.item own) = .ok knownWire) :
    add serialize table value =
      if known then .error (.duplicateEnumValue (Lookup.item value))
      else if knownWire then .error (.duplicateEnumValue (Lookup.item own))
      else .ok ⟨table.rows ++ [(value, own)]⟩ := by
  rw [add, looked, serialized]
  cases known with
  | true => rfl
  | false =>
    change (table.containsWire (Lookup.item own) >>= _) = _
    rw [lookedWire]
    cases knownWire <;> rfl

omit [Lookup α] [Lookup ω] in
/-- Among the rows of the values before it, the next value is found by what it has on a side if
this is a repetition. -/
theorem any_ofWires {β : Type} [Lookup β] (side : α × ω → β) (rest : List α) :
    ((ofWires wire done).rows.any fun row =>
        (Lookup.item (side (value, wire value))).same (Lookup.item (side row))) ↔
      Item.RepeatedAt ((done ++ value :: rest).map fun value =>
        Lookup.item (side (value, wire value))) done.length := by
  have position := Item.repeatedAt_length
    (done.map fun value => Lookup.item (side (value, wire value)))
    (rest.map fun value => Lookup.item (side (value, wire value)))
    (Lookup.item (side (value, wire value)))
  rw [List.length_map] at position
  rw [List.map_append, List.map_cons, position]
  simp [ofWires]

/-- What the next value comes to: a refusal of the value if it is a repetition, or else of its wire
form if that is one, and otherwise a table with the value. -/
theorem add_ofWires (hashed : Hashed serialize wire (done ++ value :: rest)) :
    ∃ known knownWire : Bool,
      (known ↔ Item.RepeatedAt (valueItems (done ++ value :: rest)) done.length) ∧
      (knownWire ↔ Item.RepeatedAt (wireItems wire (done ++ value :: rest)) done.length) ∧
      add serialize (ofWires wire done) value =
        if known then .error (.duplicateEnumValue (Lookup.item value))
        else if knownWire then .error (.duplicateEnumValue (Lookup.item (wire value)))
        else .ok (ofWires wire (done ++ [value])) := by
  have table : ofWires wire (done ++ [value]) =
      ⟨(ofWires wire done).rows ++ [(value, wire value)]⟩ := by simp [ofWires]
  refine ⟨_, _, ?_, ?_, table ▸ add_eq
    (holds_ok_iff.mpr ⟨hashed.value value (by simp), rfl⟩) (hashed.serialized value (by simp))
    (holds_ok_iff.mpr ⟨hashed.wireForm value (by simp), rfl⟩)⟩
  · exact any_ofWires Prod.fst rest
  · exact any_ofWires Prod.snd rest

/-! ## Building tables -/

/-- A position with a repetition before which there is none, and what is repeated there: the value
or, if only the wire form is repeated, the wire form. -/
structure FirstRepeat (wire : α → ω) (values : List α) (i : Nat) (item : Item) : Prop where
  fresh : ∀ j < i, ¬Item.RepeatedAt (valueItems values) j ∧
    ¬Item.RepeatedAt (wireItems wire values) j
  repeated : Item.RepeatedAt (valueItems values) i ∧ item ∈ (valueItems values)[i]? ∨
    ¬Item.RepeatedAt (valueItems values) i ∧
      Item.RepeatedAt (wireItems wire values) i ∧ item ∈ (wireItems wire values)[i]?

/-- Values that are gone through after others. -/
theorem ofList_append (built : ofList done serialize = .ok (ofWires wire done)) :
    ofList (done ++ rest) serialize = rest.foldlM (add serialize) (ofWires wire done) := by
  rw [ofList, List.foldlM_append, ← ofList, built]
  rfl

/-- A list without repetitions makes the table of its values. -/
theorem ofList_fresh (hashed : Hashed serialize wire values)
    (fresh : ∀ i, ¬Item.RepeatedAt (valueItems values) i)
    (freshWires : ∀ i, ¬Item.RepeatedAt (wireItems wire values) i) :
    ofList values serialize = .ok (ofWires wire values) := by
  -- Each value is compared with those before it, so the last one is taken off.
  induction values using List.reverseRecOn with
  | nil => rfl
  | append_singleton done value ih =>
    have built := ih (hashed.subset (List.subset_append_left done [value]))
      (fun i repeated => fresh i (by simpa [valueItems] using repeated.append _))
      fun i repeated => freshWires i (by simpa [wireItems] using repeated.append _)
    obtain ⟨known, knownWire, repeated, repeatedWire, added⟩ := add_ofWires hashed
    obtain rfl : known = false := by simpa using repeated.not.mpr (fresh _)
    obtain rfl : knownWire = false := by simpa using repeatedWire.not.mpr (freshWires _)
    rw [ofList_append built, List.foldlM_cons, added]
    rfl

/-- A list is refused for its first repetition: what comes before makes a table, and to this the
value at the position is not added. -/
theorem ofList_firstRepeat (hashed : Hashed serialize wire values) {i : Nat} {item : Item}
    (first : FirstRepeat wire values i item) :
    ofList values serialize = .error (.duplicateEnumValue item) := by
  have inside : i < values.length := by
    rcases first.repeated with ⟨repeated, -⟩ | ⟨-, repeated, -⟩ <;>
      simpa [valueItems, wireItems] using repeated.lt_length
  obtain ⟨done, value, rest, rfl, rfl⟩ : ∃ done value rest, values = done ++ value :: rest ∧
      done.length = i :=
    ⟨values.take i, values[i], values.drop (i + 1), by simp, by simp; omega⟩
  have built := ofList_fresh (hashed.subset (List.subset_append_left done _))
    (fun j repeated => (first.fresh j (by simpa [valueItems] using repeated.lt_length)).1
      (by simpa [valueItems] using repeated.append _))
    fun j repeated => (first.fresh j (by simpa [wireItems] using repeated.lt_length)).2
      (by simpa [wireItems] using repeated.append _)
  obtain ⟨known, knownWire, repeated, repeatedWire, added⟩ := add_ofWires hashed
  rw [ofList_append built, List.foldlM_cons, added]
  rcases first.repeated with ⟨here, own⟩ | ⟨missing, here, own⟩
  · obtain rfl : Lookup.item value = item := by simpa [valueItems] using own
    rw [repeated.mpr here]
    rfl
  · obtain rfl : Lookup.item (wire value) = item := by simpa [wireItems] using own
    obtain rfl : known = false := by simpa using repeated.not.mpr missing
    rw [repeatedWire.mpr here]
    rfl

/-- There is a first repetition if there is one of a value or of a wire form. -/
theorem exists_firstRepeat_iff : (∃ i item, FirstRepeat wire values i item) ↔
    (∃ i, Item.RepeatedAt (valueItems values) i) ∨
      ∃ i, Item.RepeatedAt (wireItems wire values) i := by
  classical
  rw [← exists_or]
  constructor
  · rintro ⟨i, item, first⟩
    exact ⟨i, first.repeated.imp And.left fun wireForm => wireForm.2.1⟩
  · intro some
    have fresh : ∀ j < Nat.find some, ¬Item.RepeatedAt (valueItems values) j ∧
        ¬Item.RepeatedAt (wireItems wire values) j :=
      fun j before => not_or.mp (Nat.find_min some before)
    by_cases value : Item.RepeatedAt (valueItems values) (Nat.find some)
    · obtain ⟨item, here, -⟩ := id value
      exact ⟨_, item, fresh, .inl ⟨value, here⟩⟩
    · have wireForm := (Nat.find_spec some).resolve_left value
      obtain ⟨item, here, -⟩ := id wireForm
      exact ⟨_, item, fresh, .inr ⟨value, wireForm, here⟩⟩

/-- Which lists make a table and what the others are refused for, if all values and all wire forms
can be looked up. A list is refused exactly if one of its values is identical or equal to another
one, or one of its wire forms is. What is reported is found at the first position where the value
repeats an earlier one or the wire form does: it is the value if that does, and otherwise the wire
form. -/
theorem ofList_repeats (hashed : Hashed serialize wire values) :
    ((∃ item, ofList values serialize = .error (.duplicateEnumValue item)) ↔
      (∃ i, Item.RepeatedAt (valueItems values) i) ∨
        ∃ i, Item.RepeatedAt (wireItems wire values) i) ∧
    (∀ fault, ofList values serialize = .error fault ↔
      ∃ i item, FirstRepeat wire values i item ∧ fault = .duplicateEnumValue item) ∧
    ((∃ table, ofList values serialize = .ok table) ↔
      (∀ i, ¬Item.RepeatedAt (valueItems values) i) ∧
        ∀ i, ¬Item.RepeatedAt (wireItems wire values) i) := by
  rw [← not_exists, ← not_exists, ← not_or, ← exists_firstRepeat_iff]
  by_cases some : ∃ i item, FirstRepeat wire values i item
  · obtain ⟨i, item, first⟩ := id some
    have failed := ofList_firstRepeat hashed first
    refine ⟨iff_of_true ⟨item, failed⟩ some, fun fault => ⟨fun also => ⟨i, item, first, ?_⟩, ?_⟩,
      iff_of_false ?_ (not_not_intro some)⟩
    · exact Except.error.inj (also.symm.trans failed)
    · rintro ⟨i, item, first, rfl⟩
      exact ofList_firstRepeat hashed first
    · rintro ⟨table, built⟩
      cases failed.symm.trans built
  · have built : ofList values serialize = .ok (ofWires wire values) := by
      rw [exists_firstRepeat_iff, not_or, not_exists, not_exists] at some
      exact ofList_fresh hashed some.1 some.2
    refine ⟨iff_of_false ?_ some, fun fault => iff_of_false ?_ ?_, iff_of_true ⟨_, built⟩ some⟩
    · rintro ⟨item, failed⟩
      cases failed.symm.trans built
    · intro failed
      cases failed.symm.trans built
    · rintro ⟨i, item, first, -⟩
      exact some ⟨i, item, first⟩

/-- A number, a text that is displayed like it, and the truth value that is equal to it. -/
def numerals : List Value := [.int 1, .text "1", .bool true]

/-- The wire form of the text is a repetition, and it comes before the truth value, which is one as
well and is refused where the text is missing. -/
theorem numerals_repeats :
    Hashed Serializer.display.apply (fun value => Value.text value.display) numerals ∧
      ofList numerals Serializer.display.apply =
        .error (.duplicateEnumValue (.value (.text "1"))) ∧
      ofList [.int 1, .bool true] Serializer.display.apply =
        .error (.duplicateEnumValue (.value (.bool true))) := by
  have hashed : Hashed Serializer.display.apply (fun value => Value.text value.display)
      numerals := by
    constructor <;>
      simp [numerals, Lookup.item, Item.isHashable, Value.key?, Value.number?, Serializer.apply]
  refine ⟨hashed, ?_, ?_⟩
  · refine ((ofList_repeats hashed).2.1 _).mpr ⟨1, _, ⟨by decide, .inr ⟨?_, ?_, rfl⟩⟩, rfl⟩
    · decide
    · decide
  · have hashed : Hashed Serializer.display.apply (fun value => Value.text value.display)
        [.int 1, .bool true] := hashed.subset (by simp [numerals])
    refine ((ofList_repeats hashed).2.1 _).mpr ⟨1, _, ⟨by decide, .inl ⟨?_, rfl⟩⟩, rfl⟩
    decide

/-- A repetition is not always one of equals: a double that is not a number is refused when it is
listed twice, although neither two of the values nor two of the wire forms are equal. Two such
doubles make a table. -/
theorem noNumber_repeats :
    [noNumber, noNumber].Pairwise (fun value other => ¬value.equal other) ∧
      (∀ value, Serializer.identity.apply value = .ok value) ∧
      ofList [noNumber, noNumber] Serializer.identity.apply =
        .error (.duplicateEnumValue (.value noNumber)) ∧
      ∃ table, ofList [.float (.nan 0), .float (.nan 1)] Serializer.identity.apply = .ok table := by
  refine ⟨?_, fun _ => rfl, rfl, _, rfl⟩
  simp [noNumber, Value.equal, Value.equalScalar, Value.number?]

end EnumTable

end ElmBindgen
