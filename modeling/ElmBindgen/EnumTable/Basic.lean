import ElmBindgen.Fault

/-!
# Enumeration tables

A table pairs each value of a fixed list with its wire form and looks up either
from the other. Neither a value nor a wire form occurs twice.

## Main definitions

* `EnumTable`: a table from values to wire forms
* `EnumTable.lookUp`, `EnumTable.holds`: looking for an item on one side of a table
* `EnumTable.toWire`, `EnumTable.fromWire`: the two lookups
* `EnumTable.ofList`: the table of a list of values under a serializer
* `protocols`, `signers`, `timestampFormats`: the tables of the closed sets
-/

namespace ElmBindgen

/-- A table from values to their wire forms, in the order of the values. -/
structure EnumTable (α ω : Type) where
  rows : List (α × ω)

namespace EnumTable

variable {α ω : Type} [Lookup α] [Lookup ω]

/-- The first row with something on one side that an item is identical or equal to.
Without a hash an item is not looked for. -/
def row? {β : Type} [Lookup β] (side : α × ω → β) (table : EnumTable α ω) (item : Item) :
    Except Fault (Option (α × ω)) :=
  if item.isHashable then .ok (table.rows.find? fun row => item.same (Lookup.item (side row)))
  else .error .wrongType

/-- What the row of an item answers, if there is one. -/
def lookUp {β γ : Type} [Lookup β] (side : α × ω → β) (answer : α × ω → γ)
    (table : EnumTable α ω) (item : Item) : Except Fault γ := do
  match ← table.row? side item with
  | some row => return answer row
  | none => throw (.unknownEnumValue item)

/-- Whether there is a row of an item. -/
def holds {β : Type} [Lookup β] (side : α × ω → β) (table : EnumTable α ω) (item : Item) :
    Except Fault Bool := do
  return (← table.row? side item).isSome

/-- The wire form of a value. -/
def toWire (table : EnumTable α ω) (item : Item) : Except Fault ω :=
  table.lookUp Prod.fst Prod.snd item

/-- The value with a wire form. -/
def fromWire (table : EnumTable α ω) (item : Item) : Except Fault α :=
  table.lookUp Prod.snd Prod.fst item

/-- Whether an item is one of the values. -/
def contains (table : EnumTable α ω) (item : Item) : Except Fault Bool :=
  table.holds Prod.fst item

/-- Whether an item is one of the wire forms. -/
def containsWire (table : EnumTable α ω) (item : Item) : Except Fault Bool :=
  table.holds Prod.snd item

/-- The values of a table. -/
def values (table : EnumTable α ω) : List α := table.rows.map Prod.fst

/-- The number of values of a table. -/
def size (table : EnumTable α ω) : Nat := table.rows.length

/-- The literal form of a table. -/
def literal (table : EnumTable α ω) : String :=
  let row (r : α × ω) : String :=
    (Lookup.item r.1).literal ++ ": " ++ (Lookup.item r.2).literal
  "EnumTable(\x7b" ++ ", ".intercalate (table.rows.map row) ++ "\x7d)"

/-- A table with one value more. The value is refused when it is there already,
and so is its wire form. -/
def add (serialize : α → Except Fault ω) (table : EnumTable α ω) (value : α) :
    Except Fault (EnumTable α ω) := do
  if ← table.contains (Lookup.item value) then throw (.duplicateEnumValue (Lookup.item value))
  let wire ← serialize value
  if ← table.containsWire (Lookup.item wire) then throw (.duplicateEnumValue (Lookup.item wire))
  return ⟨table.rows ++ [(value, wire)]⟩

/-- The table of some values under a serializer. -/
def ofList (values : List α) (serialize : α → Except Fault ω) : Except Fault (EnumTable α ω) :=
  values.foldlM (add serialize) ⟨[]⟩

end EnumTable

/-- The protocols and their words. -/
def protocols : EnumTable Protocol String := ⟨Protocol.all.map fun p => (p, p.wire)⟩

/-- The signers and their words. -/
def signers : EnumTable Signer String := ⟨Signer.all.map fun s => (s, s.wire)⟩

/-- The timestamp formats and their words. -/
def timestampFormats : EnumTable TimestampFormat String :=
  ⟨TimestampFormat.all.map fun f => (f, f.wire)⟩

/-! The tables of the closed sets are what their lists of values give. -/

theorem ofList_protocols : EnumTable.ofList Protocol.all (fun p => .ok p.wire) = .ok protocols := by
  rfl

theorem ofList_signers : EnumTable.ofList Signer.all (fun s => .ok s.wire) = .ok signers := by
  rfl

theorem ofList_timestampFormats :
    EnumTable.ofList TimestampFormat.all (fun f => .ok f.wire) = .ok timestampFormats := by
  rfl

end ElmBindgen
