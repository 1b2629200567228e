import ElmBindgen.Elm.Definition

/-!
# Slot tables

While definitions are collected, each shape name that has been reached has a
slot. A slot is reserved before the members of its shape are looked at and filled
afterwards; a slot that is filled again keeps its place.

## Main definitions

* `Slot`: a reserved or filled slot
* `SlotTable`: the slots in the order in which their names were reached
* `SlotTable.reserve`, `SlotTable.fill`, `SlotTable.drop`, `SlotTable.promote`
* `SlotTable.filled`, `SlotTable.definitions`: what the filled slots hold

Every operation is described by what it does to `SlotTable.names` and to
`SlotTable.find?`.
-/

namespace ElmBindgen

open Elm (Category Definition)

/-- The place of one shape name. -/
inductive Slot where
  | reserved
  | filled (definition : Definition)
  deriving DecidableEq, Repr

namespace Slot

/-- What a slot holds. -/
def definition? : Slot → Option Definition
  | reserved => none
  | filled definition => some definition

/-- A slot whose definition has been reached in a category. -/
def promote (category : Category) : Slot → Slot
  | reserved => reserved
  | filled definition => filled (definition.promote category)

end Slot

/-- The slots of the names reached so far, in order. -/
structure SlotTable where
  slots : List (String × Slot)
  deriving DecidableEq, Repr

namespace SlotTable

/-- No name has been reached. -/
def empty : SlotTable := ⟨[]⟩

/-- The slot of a name. -/
def find? (table : SlotTable) (name : String) : Option Slot := table.slots.lookup name

/-- The names that have a slot, in order. -/
def names (table : SlotTable) : List String := table.slots.map Prod.fst

/-- The definition in the slot of a name. -/
def definition? (table : SlotTable) (name : String) : Option Definition :=
  (table.find? name).bind Slot.definition?

/-- A reserved slot for a new name, at the end. -/
def reserve (table : SlotTable) (name : String) : SlotTable :=
  ⟨table.slots ++ [(name, .reserved)]⟩

/-- The slot of a name changed, in its place. -/
def modify (table : SlotTable) (name : String) (change : Slot → Slot) : SlotTable :=
  ⟨table.slots.map fun entry => if entry.1 = name then (name, change entry.2) else entry⟩

/-- The slot of a name filled. -/
def fill (table : SlotTable) (name : String) (definition : Definition) : SlotTable :=
  table.modify name fun _ => .filled definition

/-- The slot of a name after the name was reached in a category. -/
def promote (table : SlotTable) (name : String) (category : Category) : SlotTable :=
  table.modify name (Slot.promote category)

/-- The table without the slot of a name. -/
def drop (table : SlotTable) (name : String) : SlotTable :=
  ⟨table.slots.filter (·.1 ≠ name)⟩

/-- The names whose slots are filled, with what the slots hold, in order. -/
def filled (table : SlotTable) : List (String × Definition) :=
  table.slots.filterMap fun entry => entry.2.definition?.map (entry.1, ·)

/-- What the filled slots hold, in order. -/
def definitions (table : SlotTable) : List Definition := table.filled.map Prod.snd

/-! ## What the operations do -/

@[simp] theorem names_reserve (table : SlotTable) (name : String) :
    (table.reserve name).names = table.names ++ [name] := by
  simp [names, reserve]

@[simp] theorem names_modify (table : SlotTable) (name : String) (change : Slot → Slot) :
    (table.modify name change).names = table.names := by
  simp only [names, modify, List.map_map]
  refine List.map_congr_left fun entry _ => ?_
  by_cases same : entry.1 = name <;> simp [same]

@[simp] theorem names_fill (table : SlotTable) (name : String) (definition : Definition) :
    (table.fill name definition).names = table.names :=
  names_modify table name _

@[simp] theorem names_promote (table : SlotTable) (name : String) (category : Category) :
    (table.promote name category).names = table.names :=
  names_modify table name _

@[simp] theorem names_drop (table : SlotTable) (name : String) :
    (table.drop name).names = table.names.filter (· ≠ name) := by
  simp [names, drop, List.filter_map, Function.comp_def]

/-- A name has a slot exactly when it is one of the names. -/
theorem find?_eq_none_iff (table : SlotTable) (name : String) :
    table.find? name = none ↔ name ∉ table.names := by
  simp only [find?, names, List.lookup_eq_none_iff, List.mem_map, not_exists, not_and]
  constructor
  · intro absent entry here same
    simpa [same] using absent entry here
  · intro absent entry here
    simpa using fun same : name = entry.1 => absent entry here same.symm

/-- A name has a slot exactly when one is found. -/
theorem mem_names_iff {table : SlotTable} {name : String} :
    name ∈ table.names ↔ ∃ slot, table.find? name = some slot := by
  rw [← Option.ne_none_iff_exists', ne_eq, find?_eq_none_iff, Decidable.not_not]

theorem mem_names_of_find? {table : SlotTable} {name : String} {slot : Slot}
    (found : table.find? name = some slot) : name ∈ table.names :=
  mem_names_iff.mpr ⟨slot, found⟩

/-- Giving up a slot right after reserving it leaves no trace. -/
theorem drop_reserve {table : SlotTable} {name : String} (fresh : name ∉ table.names) :
    (table.reserve name).drop name = table := by
  obtain ⟨slots⟩ := table
  have others : slots.filter (·.1 ≠ name) = slots :=
    List.filter_eq_self.mpr fun entry here => by
      simpa using fun same : entry.1 = name =>
        fresh (same ▸ List.mem_map_of_mem here)
  rw [reserve, drop, List.filter_append, others]
  simp

theorem find?_reserve (table : SlotTable) (name other : String) :
    (table.reserve name).find? other =
      (table.find? other).or (if other = name then some .reserved else none) := by
  by_cases same : other = name <;>
    simp [find?, reserve, List.lookup_append, List.lookup_cons, same, beq_false_of_ne]

/-- A new name has a reserved slot. -/
theorem find?_reserve_self {table : SlotTable} {name : String} (fresh : name ∉ table.names) :
    (table.reserve name).find? name = some .reserved := by
  rw [find?_reserve, (find?_eq_none_iff table name).mpr fresh, Option.none_or, if_pos rfl]

theorem find?_modify (table : SlotTable) (name other : String) (change : Slot → Slot) :
    (table.modify name change).find? other =
      if other = name then (table.find? other).map change else table.find? other := by
  obtain ⟨slots⟩ := table
  simp only [find?, modify]
  induction slots with
  | nil => simp
  | cons entry rest ih =>
    obtain ⟨key, slot⟩ := entry
    by_cases here : key = name
    · subst here
      by_cases same : other = key
      · simp [same]
      · simpa [List.lookup_cons, same, beq_false_of_ne same] using ih
    · by_cases there : other = key
      · subst there
        simp [here]
      · simpa [List.lookup_cons, here, beq_false_of_ne there] using ih

theorem find?_drop (table : SlotTable) (name other : String) :
    (table.drop name).find? other = if other = name then none else table.find? other := by
  obtain ⟨slots⟩ := table
  simp only [find?, drop]
  induction slots with
  | nil => simp
  | cons entry rest ih =>
    obtain ⟨key, slot⟩ := entry
    by_cases here : key = name
    · subst here
      by_cases same : other = key
      · subst same
        simpa using ih
      · simpa [List.lookup_cons, same, beq_false_of_ne same] using ih
    · by_cases there : other = key
      · subst there
        simp [here]
      · simpa [List.lookup_cons, here, beq_false_of_ne there] using ih

end SlotTable

end ElmBindgen
