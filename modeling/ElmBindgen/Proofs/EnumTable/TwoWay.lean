import ElmBindgen.EnumTable.Serializer
import ElmBindgen.Proofs.Result
import Mathlib.Data.List.Nodup

/-!
# Enumeration tables go both ways

While a table is built its rows are told apart by their values and also by their wire forms.
So each of the two lookups finds one row at most, and the one takes back what the other has
done.

What is told apart is neither identical nor equal. Equality identifies an integer with an equal
double or truth value; identity finds an object that is equal to nothing. Both together are an
equivalence among the items with hashes, since there they amount to having one key. An item
without a hash cannot be looked up, even if it is equal to a value of the table.

## Main definitions

* `Item.key?`: what an item with a hash is found by
* `Item.Distinct`: items with hashes, each under a key of its own
* `EnumTable.TwoWay`: what every table that is built has

## Main results

* `Item.same_iff`: items with hashes are identical or equal if they have the same key
* `EnumTable.lookUp_ok_iff`, `EnumTable.lookUp_unknown_iff`: what a lookup comes to
* `EnumTable.TwoWay.add`, `EnumTable.TwoWay.foldlM`: adding values keeps a table two-way
* `EnumTable.TwoWay.toWire_ok_iff`, `EnumTable.TwoWay.fromWire_ok_iff`: what is found
* `EnumTable.ofList_lookups`: how a table that was built answers
-/

namespace ElmBindgen

/-! ## Items with hashes -/

/-- What items with hashes are found by: by what they have in common with all that they are
equal to, or else as the objects that they are. -/
inductive ItemKey where
  | content (c : Content)
  | object (o : Foreign)

namespace Item

/-- What an item with a hash is found by. -/
def key? : Item → Option ItemKey
  | foreign o =>
    match o.hashable, o.content with
    | false, _ => none
    | true, some content => some (.content content)
    | true, none => some (.object o)
  | item => item.content?.map .content

/-- Items with hashes are identical or equal if they have the same key. -/
theorem same_iff {item other : Item} (hashable : item.isHashable) (hashable' : other.isHashable) :
    item.same other ↔ item.key? = other.key? := by
  rcases item with c | v | o <;> rcases other with d | w | p <;>
    simp only [isHashable, Option.isSome_iff_exists] at hashable hashable'
  case value.value =>
    obtain ⟨key, keyed⟩ := hashable'
    rw [same, identical, equal, ← Value.same, Value.same_iff keyed]
    simp [key?, content?, keyed]
  all_goals grind [same, identical, equal, key?, content?]

/-- Items with hashes, no two of them under the same key. -/
structure Distinct (items : List Item) : Prop where
  hashable : ∀ item ∈ items, item.isHashable
  nodup : (items.map key?).Nodup

/-- Items stay distinct with one more that is neither identical nor equal to any. -/
theorem Distinct.concat {items : List Item} (distinct : Distinct items) {item : Item}
    (hashable : item.isHashable) (fresh : ∀ other ∈ items, ¬item.same other) :
    Distinct (items ++ [item]) where
  hashable := by
    simpa [or_imp, forall_and] using ⟨distinct.hashable, hashable⟩
  nodup := by
    rw [List.map_append, List.map_singleton, List.nodup_append_comm, List.singleton_append,
      List.nodup_cons]
    refine ⟨fun here => ?_, distinct.nodup⟩
    obtain ⟨other, listed, same⟩ := List.mem_map.mp here
    exact fresh other listed ((same_iff hashable (distinct.hashable other listed)).mpr same.symm)

end Item

namespace EnumTable

variable {α β γ ω : Type}

/-! ## Rows -/

section Sides

variable [Lookup β] {side : α × ω → β} {answer : α × ω → γ} {table : EnumTable α ω} {item : Item}
  {row : α × ω} {a : γ}

/-- Looking for an item with a hash is a search among the rows. -/
theorem lookUp_of_isHashable (hashable : item.isHashable) : table.lookUp side answer item =
    match table.rows.find? fun row => item.same (Lookup.item (side row)) with
    | some row => .ok (answer row)
    | none => .error (.unknownEnumValue item) := by
  rw [lookUp, row?, if_pos hashable]
  rfl

/-! An item without a hash is refused for its type. -/

theorem lookUp_unhashable (unhashable : ¬item.isHashable) :
    table.lookUp side answer item = .error .wrongType := by
  rw [lookUp, row?, if_neg unhashable]
  rfl

theorem holds_unhashable (unhashable : ¬item.isHashable) :
    table.holds side item = .error .wrongType := by
  rw [holds, row?, if_neg unhashable]
  rfl

/-- Whether there is a row can be told for an item with a hash. -/
theorem holds_ok_iff {found : Bool} : table.holds side item = .ok found ↔ item.isHashable ∧
    (table.rows.any fun row => item.same (Lookup.item (side row))) = found := by
  by_cases hashable : item.isHashable
  · rw [holds, row?, if_pos hashable, and_iff_right hashable, ← List.isSome_find?]
    exact ⟨Except.ok.inj, congrArg Except.ok⟩
  · simp [holds_unhashable hashable, hashable]

/-- Where the items of a side are distinct, the row of an item is the one with something that the
item is identical or equal to. -/
theorem find?_eq_some_iff
    (distinct : Item.Distinct (table.rows.map fun row => Lookup.item (side row)))
    (hashable : item.isHashable) :
    (table.rows.find? fun row => item.same (Lookup.item (side row))) = some row ↔
      row ∈ table.rows ∧ item.same (Lookup.item (side row)) := by
  constructor
  · intro found
    exact ⟨List.mem_of_find?_eq_some found, by simpa using List.find?_some found⟩
  · rintro ⟨listed, same⟩
    -- Some row is found, and there is only one.
    obtain ⟨first, found⟩ : ∃ first,
        (table.rows.find? fun row => item.same (Lookup.item (side row))) = some first :=
      Option.isSome_iff_exists.mp (List.find?_isSome.mpr ⟨row, listed, same⟩)
    have here := List.mem_of_find?_eq_some found
    have same' : item.same (Lookup.item (side first)) := by simpa using List.find?_some found
    rw [Item.same_iff hashable (distinct.hashable _ (List.mem_map_of_mem listed))] at same
    rw [Item.same_iff hashable (distinct.hashable _ (List.mem_map_of_mem here))] at same'
    have nodup := distinct.nodup
    rw [List.map_map] at nodup
    rw [found, List.inj_on_of_nodup_map nodup here listed (same'.symm.trans same)]

/-- An item with a hash finds what its row answers. -/
theorem lookUp_ok_iff
    (distinct : Item.Distinct (table.rows.map fun row => Lookup.item (side row))) :
    table.lookUp side answer item = .ok a ↔ item.isHashable ∧
      ∃ row ∈ table.rows, item.same (Lookup.item (side row)) ∧ answer row = a := by
  by_cases hashable : item.isHashable
  · rw [lookUp_of_isHashable hashable, and_iff_right hashable]
    simp only [← and_assoc, ← find?_eq_some_iff distinct hashable]
    split <;> simp [*]
  · simp [lookUp_unhashable hashable, hashable]

/-- An item with a hash is unknown if it is identical or equal to nothing on the side. -/
theorem lookUp_unknown_iff :
    table.lookUp side answer item = .error (.unknownEnumValue item) ↔ item.isHashable ∧
      ∀ row ∈ table.rows, ¬item.same (Lookup.item (side row)) := by
  by_cases hashable : item.isHashable
  · rw [lookUp_of_isHashable hashable, and_iff_right hashable, ← List.find?_eq_none]
    split <;> simp [*]
  · simp [lookUp_unhashable hashable, hashable]

end Sides

variable [Lookup α] [Lookup ω] {serialize : α → Except Fault ω} {table after : EnumTable α ω}
  {item : Item} {value : α} {wire : ω}

/-! ## Building tables -/

/-- A value is added if it has a hash and is new, and its wire form, too. -/
theorem add_ok_iff : add serialize table value = .ok after ↔
    ((Lookup.item value).isHashable ∧
      ∀ row ∈ table.rows, ¬(Lookup.item value).same (Lookup.item row.1)) ∧
    ∃ wire, serialize value = .ok wire ∧
      ((Lookup.item wire).isHashable ∧
        ∀ row ∈ table.rows, ¬(Lookup.item wire).same (Lookup.item row.2)) ∧
      after = ⟨table.rows ++ [(value, wire)]⟩ := by
  rw [add, Fault.bind_ok_iff]
  constructor
  · rintro ⟨known, looked, added⟩
    cases known with
    | true => cases added
    | false =>
      obtain ⟨wire, serialized, added⟩ := Fault.bind_ok_iff.mp added
      obtain ⟨known, looked', added⟩ := Fault.bind_ok_iff.mp added
      cases known with
      | true => cases added
      | false =>
        cases added
        rw [contains, holds_ok_iff, List.any_eq_false] at looked
        rw [containsWire, holds_ok_iff, List.any_eq_false] at looked'
        exact ⟨looked, wire, serialized, looked', rfl⟩
  · rintro ⟨looked, wire, serialized, looked', rfl⟩
    rw [← List.any_eq_false, ← holds_ok_iff] at looked looked'
    exact ⟨false, looked, Fault.bind_ok_iff.mpr ⟨wire, serialized,
      Fault.bind_ok_iff.mpr ⟨false, looked', rfl⟩⟩⟩

/-- The rows of a table are told apart by their values and by their wire forms, which are those
of the values. -/
structure TwoWay (serialize : α → Except Fault ω) (table : EnumTable α ω) : Prop where
  values : Item.Distinct (table.rows.map fun row => Lookup.item row.1)
  wires : Item.Distinct (table.rows.map fun row => Lookup.item row.2)
  serialized : ∀ row ∈ table.rows, serialize row.1 = .ok row.2

namespace TwoWay

theorem empty (serialize : α → Except Fault ω) : TwoWay serialize ⟨[]⟩ where
  values := ⟨by simp, .nil⟩
  wires := ⟨by simp, .nil⟩
  serialized := by simp

/-- What is added to a table goes both ways, too, and comes last. -/
theorem add (twoWay : table.TwoWay serialize) (added : add serialize table value = .ok after) :
    after.TwoWay serialize ∧ after.values = table.values ++ [value] := by
  obtain ⟨⟨hashable, fresh⟩, wire, serialized, ⟨hashable', fresh'⟩, rfl⟩ := add_ok_iff.mp added
  refine ⟨?_, by simp [EnumTable.values]⟩
  exact {
    values := by
      rw [List.map_append]
      exact twoWay.values.concat hashable (List.forall_mem_map.mpr fresh)
    wires := by
      rw [List.map_append]
      exact twoWay.wires.concat hashable' (List.forall_mem_map.mpr fresh')
    serialized := List.forall_mem_append.mpr
      ⟨twoWay.serialized, List.forall_mem_singleton.mpr serialized⟩ }

/-- So is a table to which values are added one after another. -/
theorem foldlM {values : List α} (twoWay : table.TwoWay serialize)
    (built : values.foldlM (EnumTable.add serialize) table = .ok after) :
    after.TwoWay serialize ∧ after.values = table.values ++ values := by
  induction values generalizing table with
  | nil =>
    cases built
    exact ⟨twoWay, (List.append_nil _).symm⟩
  | cons value rest ih =>
    rw [List.foldlM_cons] at built
    obtain ⟨middle, added, built⟩ := Fault.bind_ok_iff.mp built
    obtain ⟨between, first⟩ := twoWay.add added
    obtain ⟨last, others⟩ := ih between built
    exact ⟨last, by rw [others, first, List.append_assoc, List.singleton_append]⟩

theorem ofList {values : List α} (built : ofList values serialize = .ok table) :
    table.TwoWay serialize ∧ table.values = values :=
  (empty serialize).foldlM built

/-! ## Lookups -/

/-- The values of a table and their wire forms make up its rows. -/
theorem mem_rows_iff (twoWay : table.TwoWay serialize) :
    (value, wire) ∈ table.rows ↔ value ∈ table.values ∧ serialize value = .ok wire := by
  constructor
  · intro listed
    exact ⟨List.mem_map_of_mem listed, twoWay.serialized _ listed⟩
  · rintro ⟨here, serialized⟩
    obtain ⟨row, listed, rfl⟩ := List.mem_map.mp here
    cases (twoWay.serialized row listed).symm.trans serialized
    exact listed

/-- What is identical or equal to the wire form of a value stands for the value. -/
theorem fromWire_ok_iff (twoWay : table.TwoWay serialize) : table.fromWire item = .ok value ↔
    item.isHashable ∧ value ∈ table.values ∧
      ∃ wire, serialize value = .ok wire ∧ item.same (Lookup.item wire) := by
  rw [fromWire, lookUp_ok_iff twoWay.wires]
  refine and_congr_right fun _ => ?_
  constructor
  · rintro ⟨⟨_, wire⟩, listed, same, rfl⟩
    obtain ⟨here, serialized⟩ := twoWay.mem_rows_iff.mp listed
    exact ⟨here, wire, serialized, same⟩
  · rintro ⟨here, wire, serialized, same⟩
    exact ⟨_, twoWay.mem_rows_iff.mpr ⟨here, serialized⟩, same, rfl⟩

/-- An item with a hash is no wire form if it is neither identical nor equal to any of those that
the values have. -/
theorem fromWire_unknown_iff (twoWay : table.TwoWay serialize) :
    table.fromWire item = .error (.unknownEnumValue item) ↔ item.isHashable ∧
      ∀ value ∈ table.values, ∀ wire, serialize value = .ok wire →
        ¬item.same (Lookup.item wire) := by
  rw [fromWire, lookUp_unknown_iff]
  refine and_congr_right fun _ => ?_
  constructor
  · intro missing value here wire serialized
    exact missing _ (twoWay.mem_rows_iff.mpr ⟨here, serialized⟩)
  · rintro missing ⟨value, wire⟩ listed
    obtain ⟨here, serialized⟩ := twoWay.mem_rows_iff.mp listed
    exact missing value here wire serialized

end TwoWay

/-- The double that is not a number. -/
def noNumber : Value := .float (.nan 0)

end EnumTable

end ElmBindgen
