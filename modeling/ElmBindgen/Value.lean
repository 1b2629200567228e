import ElmBindgen.Number.Shortest

/-!
# Values

Service descriptions are documents of untyped values. Integers and doubles are
told apart, and an object keeps its entries in the order in which they were
written.

## Main definitions

* `Value`: the untyped values
* `Value.get?`: an entry of an object
* `Value.isTrue`: whether a value counts as present
-/

namespace ElmBindgen

/-- An untyped value. -/
inductive Value where
  | null
  | bool (b : Bool)
  | int (n : Int)
  | float (x : Binary64)
  | text (s : String)
  | list (items : List Value)
  | object (fields : List (String × Value))
  deriving Inhabited

namespace Value

/-- The entry of an object under a key; other values have no entries. -/
def get? (key : String) : Value → Option Value
  | object fields => fields.lookup key
  | _ => none

/-- Whether a value counts as true: neither null, false, zero nor empty. -/
def isTrue : Value → Bool
  | null => false
  | bool b => b
  | int n => n ≠ 0
  | float x => x.isNonzero
  | text s => s ≠ ""
  | list items => !items.isEmpty
  | object fields => !fields.isEmpty

/-- Whether a value is null. -/
def isNull : Value → Bool
  | null => true
  | _ => false

/-- A text, or null for none. -/
def ofText : Option String → Value
  | some s => text s
  | none => null

mutual

/-- The number of values that a value is made of. -/
def weight : Value → Nat
  | list items => weightItems items + 1
  | object fields => weightFields fields + 1
  | _ => 1

/-- The number of values that some items are made of. -/
def weightItems : List Value → Nat
  | [] => 0
  | item :: rest => weight item + weightItems rest

/-- The number of values that some entries are made of. -/
def weightFields : List (String × Value) → Nat
  | [] => 0
  | (_, value) :: rest => weight value + weightFields rest

end

end Value

end ElmBindgen
