-- SUMMARY: The fewest decimal digits that identify a double, and the text written with them.
import CSubset.Binary64.Basic

/-!
# Shortest decimal text

A double is written with the fewest decimal digits that read back to it. The decimals
that read back are those in the interval half-way to each neighbour, its ends included
when the significand is even. For 1, 2, … digits the two neighbours of the value on the
decimal grid of that many digits are tried; the first grid with a hit gives the digits,
the nearer of two hits, and the upper one of two equally near.

All comparisons are between natural numbers: `bias` powers of ten clear the decimal
fractions, and a quarter of the unit of `Magnitude.units` clears the interval's ends.
-/

namespace CSubset.Binary64

/-- Decimal digits without trailing zeros, with the power of ten of the last one. -/
structure Decimal where
  digits : Nat
  exponent : Int
deriving DecidableEq, Repr

/-- A power of ten that makes every tried decimal of every magnitude a whole number. -/
def bias : Nat := 400

namespace Magnitude

/-- The unit in which the interval's ends and the decimals are compared. -/
def gridUnit : Nat := twoPow (unitExponent + 2)

/-- The value in biased quarter units. -/
def point (m : Magnitude) : Nat := 4 * m.units * tenPow bias

/-- The lower end of the interval that rounds to `m`. Below a power of two the neighbour is
half as far away. -/
def lowerEnd (m : Magnitude) : Nat :=
  let distance := if m.significand = twoPow 52 ∧ 0 < m.scale then 1 else 2
  (4 * m.significand - distance) * twoPow m.scale * tenPow bias

/-- The upper end of the interval that rounds to `m`. -/
def upperEnd (m : Magnitude) : Nat := (4 * m.significand + 2) * twoPow m.scale * tenPow bias

/-- Whether a decimal, in biased quarter units, reads back as `m`. -/
def ReadsBack (m : Magnitude) (x : Nat) : Prop :=
  if m.significand % 2 = 0 then m.lowerEnd ≤ x ∧ x ≤ m.upperEnd
  else m.lowerEnd < x ∧ x < m.upperEnd

instance (m : Magnitude) (x : Nat) : Decidable (m.ReadsBack x) := by
  unfold ReadsBack; infer_instance

/-- The number of decimal digits of the value's whole part once biased. -/
def biasedLength (m : Magnitude) : Nat := decimalLength (m.point / gridUnit)

/-- The distance between decimals of `count` digits near the value. -/
def gridStep (m : Magnitude) (count : Nat) : Nat := gridUnit * tenPow (m.biasedLength - count)

/-- The grid point next to the value that reads back, on the grid whose points are `step`
apart: the nearer of the two, the upper one of a tie. -/
def hit? (m : Magnitude) (step : Nat) : Option Nat :=
  let below := m.point / step
  let above := below + 1
  if m.ReadsBack (below * step) then
    if m.ReadsBack (above * step) ∧ above * step - m.point ≤ m.point - below * step then some above
    else some below
  else if m.ReadsBack (above * step) then some above
  else none

/-- The digits of the first grid, from `count` digits on, that has a hit; 17 digits always
suffice, so `tries` stays below 18. -/
def searchDigits (m : Magnitude) : (count tries : Nat) → Decimal
  | count, 0 => ⟨m.point / m.gridStep count, (m.biasedLength : Int) - count - bias⟩
  | count, tries + 1 =>
    match m.hit? (m.gridStep count) with
    | some digits => ⟨digits, (m.biasedLength : Int) - count - bias⟩
    | none => m.searchDigits (count + 1) tries

/-- The fewest digits that read back as `m`. -/
def shortest (m : Magnitude) : Decimal := m.searchDigits 1 17

end Magnitude

-- ---------------------------------------------------------------------------
-- Text
-- ---------------------------------------------------------------------------

/-- The digits without trailing zeros. -/
def trimZeros (digits : List Char) : List Char := (digits.reverse.dropWhile (· = '0')).reverse

/-- The least power of ten that is written positionally. -/
def leastPositional : Int := -4

/-- The least power of ten that is written with an exponent. -/
def leastScientific : Int := 16

/-- Digits with the point after the first `point` of them, and a digit on both sides of it. -/
def positional (digits : List Char) (point : Int) : List Char :=
  if point ≤ 0 then ['0', '.'] ++ List.replicate (-point).toNat '0' ++ digits
  else
    let whole := digits.take point.toNat ++ List.replicate (point.toNat - digits.length) '0'
    let fraction := digits.drop point.toNat
    whole ++ ['.'] ++ if fraction.isEmpty then ['0'] else fraction

/-- One digit, the other digits behind a point if there are any, and the power of ten. -/
def scientific (digits : List Char) (power : Int) : List Char :=
  let fraction := digits.drop 1
  digits.take 1 ++ (if fraction.isEmpty then [] else '.' :: fraction) ++ ['e'] ++
    (if power < 0 then ['-'] else []) ++ Nat.toDigits 10 power.natAbs

/-- A magnitude's text: zero and the powers of ten from `leastPositional` below
`leastScientific` are written positionally, all others with an exponent. -/
def Magnitude.text (m : Magnitude) : List Char :=
  if m.significand = 0 then ['0', '.', '0']
  else
    let d := m.shortest
    let digits := Nat.toDigits 10 d.digits
    let power := (digits.length : Int) + d.exponent - 1
    if leastPositional ≤ power ∧ power < leastScientific then
      positional (trimZeros digits) (power + 1)
    else scientific (trimZeros digits) power

/-- The text of a number; the sign of a NaN is not shown. -/
def text : Binary64 → String
  | .nan => "NaN"
  | .infinite negative => if negative then "-inf" else "inf"
  | .finite negative m => String.ofList ((if negative then ['-'] else []) ++ m.text)

end CSubset.Binary64
