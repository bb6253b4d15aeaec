/-! The exact number behind a double: a whole number of units, each unit a power of two. -/
namespace Scriptlet.Number

def pow2 (n : Nat) : Nat := Nat.pow 2 n

def pow10 (n : Nat) : Nat := Nat.pow 10 n

/-- What a double stands for. A finite one is `significand * 2 ^ exponent` with its sign. -/
inductive Binary where
  | nan
  | infinite (negative : Bool)
  | finite (negative : Bool) (significand : Nat) (exponent : Int)
deriving DecidableEq

/-- The fields of the 64-bit format: one sign bit, eleven exponent bits, fifty-two fraction bits. -/
def Binary.ofBits (bits : Nat) : Binary :=
  let negative := bits / pow2 63 % 2 == 1
  let biased : Nat := bits / pow2 52 % pow2 11
  let fraction : Nat := bits % pow2 52
  if biased = 2047 then
    if fraction = 0 then .infinite negative else .nan
  else if biased = 0 then .finite negative fraction (-1074)
  else .finite negative (fraction + pow2 52) ((biased : Int) - 1075)

def binary (x : Float) : Binary :=
  .ofBits x.toBits.toNat

def isNaN (x : Float) : Bool :=
  binary x == .nan

/-- Whether a double is a zero of either sign. -/
def isZero (x : Float) : Bool :=
  match binary x with
  | .finite _ significand _ => significand == 0
  | _ => false

/-- Whether a double and an integer are the same number, with no rounding of either. -/
def equalsInteger (x : Float) (n : Int) : Bool :=
  match binary x with
  | .finite negative significand exponent =>
    let signed : Int := if negative then -significand else significand
    if 0 ≤ exponent then signed * (pow2 exponent.toNat : Int) == n
    else signed == n * (pow2 (-exponent).toNat : Int)
  | _ => false

/-- The bits of the positive infinity. -/
def infinityBits : Nat :=
  2047 * pow2 52

/-- The unsigned double nearest to `numerator / denominator`, as its bits. A tie goes to the even
significand, and what lies beyond the finite range becomes infinite. -/
def nearestBits (numerator denominator : Nat) : Nat :=
  if numerator = 0 then 0 else
    let guess : Int := (numerator.log2 : Int) - denominator.log2
    let below :=
      if 0 ≤ guess then decide (numerator < denominator * pow2 guess.toNat)
      else decide (numerator * pow2 (-guess).toNat < denominator)
    let magnitude := if below then guess - 1 else guess
    let unit := max (magnitude - 52) (-1074)
    let top := numerator * pow2 (-unit).toNat
    let bottom := denominator * pow2 unit.toNat
    let quotient := top / bottom
    let rest := 2 * (top % bottom)
    let significand :=
      if rest < bottom then quotient
      else if bottom < rest then quotient + 1
      else quotient + quotient % 2
    min ((unit + 1074).toNat * pow2 52 + significand) infinityBits

/-- The double with the given sign and unsigned bits. -/
def ofSignedBits (negative : Bool) (bits : Nat) : Float :=
  Float.ofBits (UInt64.ofNat (if negative then bits + pow2 63 else bits))

end Scriptlet.Number
