import ElmBindgen.Number.Binary64

/-!
# The shortest decimal of a double

A double is written with the fewest significant digits that read back to it;
among equally short decimals the nearest is taken. Numbers whose decimal point
falls within or just outside sixteen digits are written positionally, all others
with an exponent. A double that is not finite is written as a word.

## Main definitions

* `Binary64.Finite.shortest`: the digits and the place of the decimal point
* `Binary64.text`: the written form
-/

namespace ElmBindgen

/-- A positive decimal `0.d₁d₂… * 10 ^ point`. -/
structure Decimal where
  digits : Nat
  point : Int
  deriving DecidableEq, Repr

namespace Binary64

/-- The number of steps by which a fraction below one has to be multiplied by
ten before it reaches one, searched up to `fuel`. -/
def leadingPlaces (num den : Nat) : Nat → Nat
  | 0 => 0
  | fuel + 1 => if den ≤ num then 0 else leadingPlaces (num * 10) den fuel + 1

/-- The place of the decimal point of `num / den` before its first digit. -/
def pointOf (num den : Nat) : Int :=
  if den ≤ num then (Nat.toDigits 10 (num / den)).length
  else 1 - (leadingPlaces num den 400 : Int)

namespace Finite

/-- The nearest of the decimals with `count` digits that read back to `x`. -/
def readBack? (x : Finite) (point : Int) (count : Nat) : Option Nat :=
  let (num, den) := x.ratio
  let scale : Int := point - count
  let (num, den) :=
    if 0 ≤ scale then (num, den * Nat.pow 10 scale.toNat)
    else (num * Nat.pow 10 (-scale).toNat, den)
  let lower := num / den
  let twice := 2 * (num % den)
  let reads (digits : Nat) : Bool := ofDecimal x.negative digits scale = finite x
  let upperFirst : Bool := den < twice || (twice = den && lower % 2 = 1)
  let first := if upperFirst then lower + 1 else lower
  let second := if upperFirst then lower else lower + 1
  if reads first then some first else if reads second then some second else none

/-- The shortest decimal that reads back, tried from `count` digits on. -/
def shortestFrom (x : Finite) (point : Int) (count : Nat) : Nat → Decimal
  | 0 => ⟨x.ratio.1, point⟩
  | fuel + 1 =>
    match readBack? x point count with
    | some digits => ⟨digits, point - count + (Nat.toDigits 10 digits).length⟩
    | none => shortestFrom x point (count + 1) fuel

/-- The shortest decimal that reads back to `x`. -/
def shortest (x : Finite) : Decimal :=
  shortestFrom x (pointOf x.ratio.1 x.ratio.2) 1 17

end Finite

/-- Digits of a positive number without trailing zeros. -/
def significant (digits : Nat) : List Char :=
  match ((Nat.toDigits 10 digits).reverse.dropWhile (· = '0')).reverse with
  | [] => ['0']
  | cs => cs

/-- Written form of `0.d₁d₂… * 10 ^ point`: positional for a decimal point from
three places before the first digit to sixteen after it. -/
def layout (ds : List Char) (point : Int) : List Char :=
  let count : Int := ds.length
  if point ≤ -4 ∨ 16 < point then
    let power := point - 1
    let tail := Nat.toDigits 10 power.natAbs
    let lead := match ds with
      | d :: [] => [d]
      | d :: rest => d :: '.' :: rest
      | [] => []
    lead ++ ['e', if power < 0 then '-' else '+'] ++
      (if tail.length < 2 then '0' :: tail else tail)
  else if point ≤ 0 then
    '0' :: '.' :: List.replicate (-point).toNat '0' ++ ds
  else if count ≤ point then
    ds ++ List.replicate (point - count).toNat '0' ++ ['.', '0']
  else
    ds.take point.toNat ++ '.' :: ds.drop point.toNat

/-- The written form of a finite double. -/
def Finite.text (x : Finite) : String :=
  let sign := if x.negative then ['-'] else []
  if x.mantissa = 0 then String.ofList (sign ++ ['0', '.', '0'])
  else
    let decimal := x.shortest
    String.ofList (sign ++ layout (significant decimal.digits) decimal.point)

/-- The written form of a double. -/
def text : Binary64 → String
  | finite x => x.text
  | infinite negative => if negative then "-inf" else "inf"
  | nan _ => "nan"

end Binary64

end ElmBindgen
