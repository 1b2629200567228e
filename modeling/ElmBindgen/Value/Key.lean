import ElmBindgen.Value

/-!
# Equality of values

Numbers are equal if they are the same number, whether they are integers, doubles
or truth values standing for zero and one. A double that is not a number is equal
to nothing, itself included.

Whatever compares the parts of something, or looks something up, takes what is
identical for equal and so finds such a double as well. What can be looked up this
way has a key: the number that it stands for, if it is one. Lists and objects have
no keys.

## Main definitions

* `Value.equal`: equality of values, deep and up to the order of entries
* `Value.same`: whether values are identical or equal
* `Key`: what a value is looked up by
* `Value.key?`: the key of a value
-/

namespace ElmBindgen

namespace Value

/-- The number that a value stands for. -/
def number? : Value → Option Rat
  | bool b => some (Rat.ofInt (if b then 1 else 0))
  | int n => some (Rat.ofInt n)
  | float (.finite x) => some x.value
  | _ => none

/-- Equality of values without parts. -/
def equalScalar : Value → Value → Bool
  | null, null => true
  | text s, text t => s == t
  | float (.infinite negative), float (.infinite negative') => negative == negative'
  | x, y => x.number?.isSome && x.number? == y.number?

/-- Whether values are one and the same object, where equality does not tell: such
are only the doubles that are not numbers. -/
def identical : Value → Value → Bool
  | float (.nan m), float (.nan n) => m == n
  | _, _ => false

mutual

/-- Equality of values: lists are compared item by item, objects entry by entry in
any order. -/
def equal : Value → Value → Bool
  | list xs, list ys => sameItems xs ys
  | object xs, object ys => xs.length == ys.length && sameFields xs ys
  | x, y => equalScalar x y

/-- Whether the items of two lists are identical or equal. -/
def sameItems : List Value → List Value → Bool
  | [], [] => true
  | x :: xs, y :: ys => (identical x y || equal x y) && sameItems xs ys
  | _, _ => false

/-- Whether each entry is, but for equality, also an entry of the other object. -/
def sameFields : List (String × Value) → List (String × Value) → Bool
  | [], _ => true
  | (key, x) :: xs, ys =>
    (match ys.lookup key with | some y => identical x y || equal x y | none => false) &&
      sameFields xs ys

end

/-- Whether values are identical or equal. -/
def same (x y : Value) : Bool := identical x y || equal x y

end Value

/-- What a value is looked up by. A double that is not a number is found as the
object that it is. -/
inductive Key where
  | null
  | number (q : Rat)
  | infinite (negative : Bool)
  | nan (object : Nat)
  | text (s : String)
  deriving DecidableEq, Repr

namespace Value

/-- The key of a value; lists and objects have none. -/
def key? : Value → Option Key
  | null => some .null
  | text s => some (.text s)
  | float (.infinite negative) => some (.infinite negative)
  | float (.nan n) => some (.nan n)
  | number => number.number?.map .number

/-- A value is identical or equal to one that can be looked up if both have the same
key. -/
theorem same_iff {value other : Value} {key : Key} (keyed : other.key? = some key) :
    value.same other ↔ value.key? = some key := by
  rw [← keyed]
  -- The kinds of both decide, and there are three kinds of doubles.
  rcases other with _ | _ | _ | (_ | _ | _) | _ | _ | _
  case list => cases keyed
  case object => cases keyed
  all_goals
    rcases value with _ | _ | _ | (_ | _ | _) | _ | _ | _ <;>
      simp [same, identical, equal, equalScalar, key?, number?]

end Value

end ElmBindgen
