-- SUMMARY: Double-precision numbers as exact multiples of the smallest one, and rounding to them.

/-!
# Binary64

A finite double is a whole multiple of `2 ^ -1074`, so the module works in natural
numbers alone: a magnitude is a significand and a scale, and stands for
`significand * 2 ^ scale` of that unit. The canonical form, which the type carries, makes
the representation unique. `Magnitude.round?` rounds a non-negative fraction to the
nearest magnitude, halves to the even significand, and fails exactly where the result
would pass the largest one.
-/

namespace CSubset

namespace Binary64

/-- A power of two. -/
def twoPow (n : Nat) : Nat := Nat.pow 2 n

/-- A power of ten. -/
def tenPow (n : Nat) : Nat := Nat.pow 10 n

/-- The exponent of the unit: finite values are multiples of `2 ^ -1074`. -/
def unitExponent : Nat := 1074

/-- The canonical pairs of significand and scale: 53 bits at most, all of them used unless
the scale is zero, and the scale within the exponent range. -/
def Canonical (significand scale : Nat) : Prop :=
  significand < twoPow 53 ∧ (twoPow 52 ≤ significand ∨ scale = 0) ∧ scale ≤ 2045

instance (m s : Nat) : Decidable (Canonical m s) :=
  inferInstanceAs (Decidable (_ ∧ _ ∧ _))

/-- The absolute value `significand * 2 ^ scale`, in units of `2 ^ -1074`. -/
structure Magnitude where
  significand : Nat
  scale : Nat
  canonical : Canonical significand scale
deriving DecidableEq, Repr

namespace Magnitude

/-- The value in units of `2 ^ -1074`. -/
def units (m : Magnitude) : Nat := m.significand * twoPow m.scale

/-- Zero. -/
def zero : Magnitude := ⟨0, 0, by decide⟩

/-- The quotient rounded to the nearest natural number, a half to the even neighbour. -/
def divNearest (a b : Nat) : Nat :=
  let q := a / b
  let r := a % b
  if b < 2 * r ∨ (2 * r = b ∧ q % 2 = 1) then q + 1 else q

/-- The number of bits below the 53 leading ones of a value of `units` units. -/
def scaleOf (units : Nat) : Nat := (if units = 0 then 0 else Nat.log2 units + 1) - 53

/-- The magnitude nearest to `a / b`, a tie going to the even significand; `none` where that
would pass the largest magnitude. -/
def round? (a b : Nat) : Option Magnitude :=
  let scale := scaleOf (a * twoPow unitExponent / b)
  let m := divNearest (a * twoPow unitExponent) (b * twoPow scale)
  let (m, scale) := if m = twoPow 53 then (twoPow 52, scale + 1) else (m, scale)
  if h : Canonical m scale then some ⟨m, scale, h⟩ else none

end Magnitude

end Binary64

/-- A double-precision number. -/
inductive Binary64 where
  | nan
  | infinite (negative : Bool)
  | finite (negative : Bool) (magnitude : Binary64.Magnitude)
deriving DecidableEq, Repr

namespace Binary64

instance : Inhabited Binary64 := ⟨.finite false .zero⟩

/-- The number with the opposite sign; a NaN has no sign to change. -/
def negate : Binary64 → Binary64
  | .nan => .nan
  | .infinite s => .infinite (!s)
  | .finite s m => .finite (!s) m

/-- How many decimal digits a natural number has; zero has one. -/
def decimalLength (n : Nat) : Nat := (Nat.toDigits 10 n).length

/-- The number nearest to `digits * 10 ^ exponent`, infinite when it is too large.

A value of at least `10 ^ 309` passes the largest number and one below `10 ^ -324` rounds to
zero, so the powers of ten that are formed stay small whatever the exponent. -/
def ofDecimal (digits : Nat) (exponent : Int) : Binary64 :=
  let top := decimalLength digits + exponent
  if digits = 0 ∨ top < -323 then .finite false .zero
  else if 309 < top then .infinite false
  else
    let rounded :=
      if 0 ≤ exponent then Magnitude.round? (digits * tenPow exponent.toNat) 1
      else Magnitude.round? digits (tenPow (-exponent).toNat)
    match rounded with
    | some m => .finite false m
    | none => .infinite false

end Binary64

end CSubset
