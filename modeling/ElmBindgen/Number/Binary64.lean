/-!
# Binary floating-point numbers

A `Binary64` is a double-precision number: a finite one, held exactly as a sign, a
mantissa and a binary exponent, an infinity, or one that is not a number. The
representation of a finite one is canonical, which is part of it: the mantissa has
53 bits unless the exponent is the least one. So no number has two of them, signs of
zero apart, and rounding leaves nothing else.

## Main definitions

* `Binary64.Canonical`: the mantissas and exponents of finite doubles
* `Binary64.Canonical.unique`: no number is represented twice
* `Binary64.Finite`: a finite double-precision number
* `Binary64`: a double-precision number
* `Binary64.Finite.value`: the number that a finite double stands for
* `Binary64.ofDecimal`: the double nearest to a decimal, ties to even
-/

namespace ElmBindgen

namespace Binary64

/-- Number of bits of a mantissa. -/
def precision : Nat := 53

/-- The exponent of the smallest positive double. -/
def leastExponent : Int := -1074

/-- The number of binary places between the smallest positive double and the last
binary place of the largest double. -/
def greatestShift : Nat := 2045

/-- A mantissa and an exponent of a finite double. -/
structure Canonical (mantissa : Nat) (exponent : Int) : Prop where
  bounded : mantissa < Nat.pow 2 precision
  least : leastExponent ≤ exponent
  greatest : exponent ≤ leastExponent + greatestShift
  normal : Nat.pow 2 (precision - 1) ≤ mantissa ∨ exponent = leastExponent

instance (mantissa : Nat) (exponent : Int) : Decidable (Canonical mantissa exponent) :=
  decidable_of_iff (mantissa < Nat.pow 2 precision ∧ leastExponent ≤ exponent ∧
      exponent ≤ leastExponent + greatestShift ∧
      (Nat.pow 2 (precision - 1) ≤ mantissa ∨ exponent = leastExponent))
    ⟨fun ⟨bounded, least, greatest, normal⟩ => ⟨bounded, least, greatest, normal⟩,
      fun ⟨bounded, least, greatest, normal⟩ => ⟨bounded, least, greatest, normal⟩⟩

namespace Canonical

variable {m n : Nat} {e f : Int}

/-- With a greater exponent goes a greater number. -/
theorem lt_of_lt (first : Canonical m e) (second : Canonical n f) (less : e < f) :
    m * Nat.pow 2 (e - leastExponent).toNat < n * Nat.pow 2 (f - leastExponent).toNat := by
  have least := first.least
  have bits : Nat.pow 2 (precision - 1) ≤ n := second.normal.resolve_right (by omega)
  have places : precision + (e - leastExponent).toNat ≤
      precision - 1 + (f - leastExponent).toNat := by
    simp only [precision]
    omega
  calc m * Nat.pow 2 (e - leastExponent).toNat
      < Nat.pow 2 precision * Nat.pow 2 (e - leastExponent).toNat :=
        Nat.mul_lt_mul_of_pos_right first.bounded (Nat.two_pow_pos _)
    _ = Nat.pow 2 (precision + (e - leastExponent).toNat) := (Nat.pow_add ..).symm
    _ ≤ Nat.pow 2 (precision - 1 + (f - leastExponent).toNat) :=
        Nat.pow_le_pow_right Nat.two_pos places
    _ = Nat.pow 2 (precision - 1) * Nat.pow 2 (f - leastExponent).toNat := Nat.pow_add ..
    _ ≤ n * Nat.pow 2 (f - leastExponent).toNat := Nat.mul_le_mul_right _ bits

/-- No number is represented twice. -/
theorem unique (first : Canonical m e) (second : Canonical n f)
    (same : m * Nat.pow 2 (e - leastExponent).toNat =
      n * Nat.pow 2 (f - leastExponent).toNat) : m = n ∧ e = f := by
  obtain less | rfl | greater := Int.lt_trichotomy e f
  · exact absurd same (Nat.ne_of_lt (first.lt_of_lt second less))
  · exact ⟨Nat.eq_of_mul_eq_mul_right (Nat.two_pow_pos _) same, rfl⟩
  · exact absurd same (Nat.ne_of_gt (second.lt_of_lt first greater))

end Canonical

/-- A finite double: `mantissa * 2 ^ exponent`, negated when `negative` holds. -/
structure Finite where
  negative : Bool
  mantissa : Nat
  exponent : Int
  canonical : Canonical mantissa exponent
  deriving DecidableEq, Repr

namespace Finite

/-- The magnitude as a numerator and a denominator. -/
def ratio (x : Finite) : Nat × Nat :=
  if 0 ≤ x.exponent then (x.mantissa * Nat.pow 2 x.exponent.toNat, 1)
  else (x.mantissa, Nat.pow 2 (-x.exponent).toNat)

/-- The number that a finite double stands for. -/
def value (x : Finite) : Rat :=
  mkRat (if x.negative then -(x.ratio.1 : Int) else x.ratio.1) x.ratio.2

/-- Zero, with its sign. -/
def zero (negative : Bool) : Finite := ⟨negative, 0, leastExponent, by decide⟩

end Finite

end Binary64

/-- A double-precision number. One that is not a number is equal to none, itself
included, and therefore tells which object it is. -/
inductive Binary64 where
  | finite (x : Binary64.Finite)
  | infinite (negative : Bool)
  | nan (object : Nat)
  deriving DecidableEq, Repr

namespace Binary64

/-- Whether a double differs from zero. One that is not a number does. -/
def isNonzero : Binary64 → Bool
  | finite x => x.mantissa ≠ 0
  | _ => true

/-! ## Rounding -/

/-- The natural number nearest to `num / den`, a half going to the even one. -/
def roundDiv (num den : Nat) : Nat :=
  let quotient := num / den
  let twice := 2 * (num % den)
  if twice < den then quotient
  else if den < twice then quotient + 1
  else if quotient % 2 = 0 then quotient else quotient + 1

/-- Rounding goes down or up. -/
theorem roundDiv_eq_or (num den : Nat) :
    roundDiv num den = num / den ∨ roundDiv num den = num / den + 1 := by
  simp only [roundDiv]
  grind

/-- How often a number has to be halved before it has 53 bits. -/
def halvings (n : Nat) : Nat := Nat.log2 n - (precision - 1)

/-- After its halvings a number has 53 bits at most. -/
theorem div_halvings_lt (n : Nat) : n / Nat.pow 2 (halvings n) < Nat.pow 2 precision := by
  have bits : Nat.log2 n + 1 ≤ precision + halvings n := by
    simp only [halvings, precision]
    omega
  refine (Nat.div_lt_iff_lt_mul (Nat.two_pow_pos _)).mpr ?_
  calc n < Nat.pow 2 (Nat.log2 n + 1) := Nat.lt_log2_self
    _ ≤ Nat.pow 2 (precision + halvings n) := Nat.pow_le_pow_right Nat.two_pos bits
    _ = Nat.pow 2 precision * Nat.pow 2 (halvings n) := Nat.pow_add ..

/-- It has 53 bits if it was halved at all. -/
theorem le_div_halvings {n : Nat} (halved : halvings n ≠ 0) :
    Nat.pow 2 (precision - 1) ≤ n / Nat.pow 2 (halvings n) := by
  have bits : precision - 1 + halvings n = Nat.log2 n := by
    simp only [halvings, precision] at halved ⊢
    omega
  have positive : n ≠ 0 := by
    rintro rfl
    exact halved rfl
  refine (Nat.le_div_iff_mul_le (Nat.two_pow_pos _)).mpr ?_
  calc Nat.pow 2 (precision - 1) * Nat.pow 2 (halvings n)
      = Nat.pow 2 (precision - 1 + halvings n) := (Nat.pow_add ..).symm
    _ = Nat.pow 2 (Nat.log2 n) := by rw [bits]
    _ ≤ n := Nat.log2_self_le positive

/-- The mantissa of `num / den`, in multiples of the least exponent that its
halvings give. -/
def mantissaOf (num den : Nat) : Nat :=
  roundDiv num (den * Nat.pow 2 (halvings (num / den)))

/-- The mantissa is the halved quotient, rounded down or up. -/
theorem mantissaOf_eq_or (num den : Nat) :
    mantissaOf num den = num / den / Nat.pow 2 (halvings (num / den)) ∨
      mantissaOf num den = num / den / Nat.pow 2 (halvings (num / den)) + 1 := by
  rw [Nat.div_div_eq_div_mul]
  exact roundDiv_eq_or _ _

theorem mantissaOf_le (num den : Nat) : mantissaOf num den ≤ Nat.pow 2 precision := by
  have quotient := div_halvings_lt (num / den)
  rcases mantissaOf_eq_or num den with down | up <;> omega

theorem le_mantissaOf {num den : Nat} (halved : halvings (num / den) ≠ 0) :
    Nat.pow 2 (precision - 1) ≤ mantissaOf num den := by
  have quotient := le_div_halvings halved
  rcases mantissaOf_eq_or num den with down | up <;> omega

/-- The double with a mantissa that is shifted from the least exponent. Beyond the
largest double it is an infinity. -/
def shifted (negative : Bool) (mantissa shift : Nat) (bounded : mantissa < Nat.pow 2 precision)
    (normal : Nat.pow 2 (precision - 1) ≤ mantissa ∨ shift = 0) : Binary64 :=
  if inside : shift ≤ greatestShift then
    .finite ⟨negative, mantissa, leastExponent + shift, bounded, by omega, by omega,
      normal.imp_right (by omega)⟩
  else .infinite negative

/-- The double nearest to `num / den`, ties going to the even mantissa. -/
def ofRatio (negative : Bool) (num den : Nat) : Binary64 :=
  -- From here on everything is counted in multiples of the smallest positive double.
  let num := num * Nat.pow 2 (-leastExponent).toNat
  if carried : mantissaOf num den = Nat.pow 2 precision then
    shifted negative (Nat.pow 2 (precision - 1)) (halvings (num / den) + 1)
      (Nat.pow_lt_pow_right (by decide) (by decide)) (.inl (Nat.le_refl _))
  else
    shifted negative (mantissaOf num den) (halvings (num / den))
      (Nat.lt_of_le_of_ne (mantissaOf_le num den) carried)
      (Decidable.or_iff_not_imp_right.mpr le_mantissaOf)

/-- The double nearest to `digits * 10 ^ exponent`. -/
def ofDecimal (negative : Bool) (digits : Nat) (exponent : Int) : Binary64 :=
  -- The powers of ten that are out of reach are not computed.
  let magnitude : Int := (Nat.toDigits 10 digits).length + exponent
  if digits = 0 ∨ magnitude < -400 then .finite (.zero negative)
  else if 400 < magnitude then .infinite negative
  else if 0 ≤ exponent then ofRatio negative (digits * Nat.pow 10 exponent.toNat) 1
  else ofRatio negative digits (Nat.pow 10 (-exponent).toNat)

end Binary64

end ElmBindgen
