-- SUMMARY: Reading doubles from decimal numerals.
import CSubset.Binary64.Basic

/-!
# Numerals

The numerals of doubles: a sign, then digits with at most one point and at least one
digit, then an exponent; or the words for infinity and for no number, in either case of
letters. The source language itself writes only `digits . digits`, which is
`ofPointed`.
-/

namespace CSubset.Binary64

/-- The number that a list of decimal digits stands for, most significant first. -/
def digitsValue (digits : List Char) : Nat :=
  digits.foldl (fun n c => 10 * n + (c.toNat - '0'.toNat)) 0

/-- The number written `whole.fraction`, for digits before and behind the point. -/
def ofPointed (whole fraction : List Char) : Binary64 :=
  ofDecimal (digitsValue (whole ++ fraction)) (-(fraction.length : Int))

/-- A sign in front of a numeral, and what follows it. -/
def splitSign : List Char → Bool × List Char
  | '-' :: rest => (true, rest)
  | '+' :: rest => (false, rest)
  | rest => (false, rest)

/-- The exponent part of a numeral: nothing, or a mark, a sign and at least one digit. -/
def exponent? : List Char → Option Int
  | [] => some 0
  | mark :: rest =>
    let (negative, digits) := splitSign rest
    if (mark = 'e' ∨ mark = 'E') ∧ digits ≠ [] ∧ digits.all Char.isDigit then
      some (if negative then -(digitsValue digits : Int) else digitsValue digits)
    else none

/-- An unsigned numeral in digits. -/
def ofDigits? (text : List Char) : Option Binary64 :=
  let whole := text.takeWhile Char.isDigit
  let rest := text.dropWhile Char.isDigit
  let (fraction, rest) := match rest with
    | '.' :: rest => (rest.takeWhile Char.isDigit, rest.dropWhile Char.isDigit)
    | rest => ([], rest)
  if whole.isEmpty ∧ fraction.isEmpty then none
  else (exponent? rest).map fun e =>
    ofDecimal (digitsValue (whole ++ fraction)) (e - fraction.length)

/-- The number that a numeral stands for, correctly rounded. -/
def ofText? (text : String) : Option Binary64 :=
  let (negative, body) := splitSign text.toList
  let word := String.ofList (body.map Char.toLower)
  let magnitude :=
    if word = "inf" ∨ word = "infinity" then some (.infinite false)
    else if word = "nan" then some .nan
    else ofDigits? body
  magnitude.map fun x => if negative then x.negate else x

end CSubset.Binary64
