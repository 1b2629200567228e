import ElmBindgen.Fault

/-!
# Reading untyped values

The ways in which a description is read, each with the fault that it gives on a
value of another type.

## Main definitions

* `Value.key`: the key, for values that have one
* `Value.elements`: what going through a value yields
* `Value.contains`: whether a text is found in a value
* `Value.position`: the position that a value stands for
* `Value.entry`, `Value.entry?`: the entries of an object
* `Value.string`: the characters of a text
-/

namespace ElmBindgen.Value

/-- The key of a value that can be looked up. -/
def key (value : Value) : Except Fault Key :=
  match value.key? with
  | some key => .ok key
  | none => .error .wrongType

/-- What going through a value yields: the items of a list, the characters of a
text, the keys of an object. -/
def elements : Value → Except Fault (List Value)
  | list items => .ok items
  | text s => .ok (s.toList.map fun c => text (String.singleton c))
  | object fields => .ok (fields.map fun field => text field.1)
  | _ => .error .wrongType

/-- Whether some characters occur next to each other among others. -/
def occurs (part : List Char) : List Char → Bool
  | [] => part.isEmpty
  | c :: rest => part.isPrefixOf (c :: rest) || occurs part rest

/-- Whether a text is found in a value: among the items of a list, as a part of a
text, among the keys of an object. -/
def contains (part : String) : Value → Except Fault Bool
  | list items => .ok (items.any fun item => item.key? == some (.text part))
  | text s => .ok (occurs part.toList s.toList)
  | object fields => .ok (fields.lookup part).isSome
  | _ => .error .wrongType

/-- The position that a number stands for in a row of some length. Negative numbers
count from the end. -/
def positionOf (length : Nat) (n : Int) : Except Fault Nat :=
  let n := if n < 0 then n + length else n
  if 0 ≤ n ∧ n < length then .ok n.toNat else .error .outOfRange

/-- The position that a value stands for; a truth value stands for zero or one. -/
def position (length : Nat) : Value → Except Fault Nat
  | int n => positionOf length n
  | bool b => positionOf length (if b then 1 else 0)
  | _ => .error .wrongType

/-- The entry under a key, which has to be there. -/
def entry (key : String) : Value → Except Fault Value
  | object fields =>
    match fields.lookup key with
    | some value => .ok value
    | none => .error (.missingKey key)
  | _ => .error .wrongType

/-- The entry under a key, if there is one. -/
def entry? (key : String) : Value → Except Fault (Option Value)
  | object fields => .ok (fields.lookup key)
  | _ => .error .missingAttribute

/-- The characters of a text that is taken apart. -/
def string : Value → Except Fault String
  | text s => .ok s
  | _ => .error .missingAttribute

end ElmBindgen.Value
