import ElmBindgen.Service.Constant
import ElmBindgen.Value.Key

/-!
# Items

Enumeration tables hold constants, untyped values or any other objects, and are
asked about all of them. What has a hash can be looked up. It finds what it is
identical or equal to, and these may differ: an object can be equal to nothing,
not even to itself, and one without a hash can be equal to one that has a hash.

Equality is taken to be what the hashes rely on: it is symmetric and transitive,
and what is equal has the same hash if it has one.

## Main definitions

* `Foreign`: an object that is neither a constant nor an untyped value
* `Item`: what a table may hold or be asked about
* `Item.isHashable`: whether an item can be looked up
* `Item.equal`, `Item.same`: whether items are equal, or else identical
* `Lookup`: the types whose members are items
-/

namespace ElmBindgen

/-- What all objects that are equal to one another have in common: they are equal to
a constant, to an untyped value, or to none of these. -/
inductive Content where
  | constant (c : Constant)
  | value (k : Key)
  | other (n : Nat)
  deriving DecidableEq, Repr

/-- An object that is neither a constant nor an untyped value, as far as a table can
tell: which object it is, whether it has a hash, what it is equal to, if it is equal to
anything, and its literal form. -/
structure Foreign where
  number : Nat
  hashable : Bool
  content : Option Content
  literal : String
  deriving DecidableEq, Repr

/-- What a table may hold or be asked about. -/
inductive Item where
  | constant (c : Constant)
  | value (v : Value)
  | foreign (o : Foreign)

namespace Item

/-- Whether an item has a hash. Lists and objects have none. -/
def isHashable : Item → Bool
  | constant _ => true
  | value v => v.key?.isSome
  | foreign o => o.hashable

/-- What an item has in common with those that it is equal to, for items without parts. -/
def content? : Item → Option Content
  | constant c => some (.constant c)
  | value v => v.key?.map .value
  | foreign o => o.content

/-- Equality of items. A constant is equal to itself and untyped values are compared as
such; any other object is equal to what has the same content, if it is equal to
anything. -/
def equal : Item → Item → Bool
  | constant c, constant d => c == d
  | value v, value w => v.equal w
  | constant _, value _ => false
  | value _, constant _ => false
  | item, other => item.content?.isSome && item.content? == other.content?

/-- Whether items are one and the same object, where equality does not tell. -/
def identical : Item → Item → Bool
  | value v, value w => v.identical w
  | foreign o, foreign p => o == p
  | _, _ => false

/-- Whether items are identical or equal. -/
def same (item other : Item) : Bool := item.identical other || item.equal other

/-- The literal form of an item. -/
def literal : Item → String
  | constant c => c.literal
  | value v => v.literal
  | foreign o => o.literal

end Item

/-- Types whose members can be looked up in a table. -/
class Lookup (α : Type) where
  item : α → Item

instance : Lookup Item := ⟨id⟩

instance : Lookup Value := ⟨.value⟩

instance : Lookup Foreign := ⟨.foreign⟩

instance : Lookup String := ⟨fun s => .value (.text s)⟩

instance : Lookup Protocol := ⟨fun p => .constant (.protocol p)⟩

instance : Lookup Signer := ⟨fun s => .constant (.signer s)⟩

instance : Lookup TimestampFormat := ⟨fun f => .constant (.timestampFormat f)⟩

end ElmBindgen
