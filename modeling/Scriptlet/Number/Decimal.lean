import Scriptlet.Number.Binary

/-! Decimal numbers `digits * 10 ^ exponent`, and the double that lies nearest to one. -/
namespace Scriptlet.Number

structure Decimal where
  digits : Nat
  exponent : Int
deriving DecidableEq, Inhabited

/-- How many decimal digits a natural number is written with. -/
def digitCount (n : Nat) : Nat :=
  (Nat.toDigits 10 n).length

/-- The number of digits before the decimal point; it is negative for a fraction that starts with
zeros. -/
def Decimal.point (decimal : Decimal) : Int :=
  digitCount decimal.digits + decimal.exponent

/-- The unsigned bits of the nearest double. Decimals whose size alone puts them outside the range
of doubles are answered without computing their powers of ten. -/
def Decimal.nearestBits (decimal : Decimal) : Nat :=
  if decimal.digits = 0 ∨ decimal.point < -340 then 0
  else if 340 < decimal.point then infinityBits
  else Number.nearestBits (decimal.digits * pow10 decimal.exponent.toNat)
    (pow10 (-decimal.exponent).toNat)

def Decimal.toFloat (negative : Bool) (decimal : Decimal) : Float :=
  ofSignedBits negative decimal.nearestBits

/-- The digits of a decimal without the zeros at their end. -/
def Decimal.significant (decimal : Decimal) : List Char :=
  ((Nat.toDigits 10 decimal.digits).reverse.dropWhile (· == '0')).reverse

end Scriptlet.Number
