import Scriptlet.Number.Shortest

/-! Texts of numbers. Every style writes the shortest digits that read back; the styles differ in
the range they write positionally and in the names of the values that are not finite. -/
namespace Scriptlet.Number

structure Style where
  nan : String
  infinite : String
  /-- Whether a number whose leading digit has this decimal exponent is written positionally. -/
  positional : Int → Bool

/-- Positional notation between `0.0001` and `10 ^ 16`. -/
def moderate (exponent : Int) : Bool :=
  -4 ≤ exponent && exponent < 16

/-- Literals in trees and answers. -/
def Style.literal : Style := ⟨"nan", "inf", moderate⟩

/-- Numbers that a program prints: exponents are always spelled out. -/
def Style.printed : Style := ⟨"NaN", "Infinity", fun _ => true⟩

/-- Numbers in a JSON text. -/
def Style.json : Style := ⟨"NaN", "Infinity", moderate⟩

/-- Digits with a decimal point after the first `point` of them, filled up with zeros so that at
least one digit stands on each side. -/
def positionalText (digits : List Char) (point : Int) : List Char :=
  if point ≤ 0 then '0' :: '.' :: (List.replicate (-point).toNat '0' ++ digits)
  else
    let whole := point.toNat
    if whole < digits.length then digits.take whole ++ '.' :: digits.drop whole
    else digits ++ List.replicate (whole - digits.length) '0' ++ ['.', '0']

/-- One digit before the point and a signed exponent of at least two digits. -/
def scientificText (digits : List Char) (exponent : Int) : List Char :=
  let fraction := digits.drop 1
  let size := Nat.toDigits 10 exponent.natAbs
  digits.take 1 ++ (if fraction.isEmpty then [] else '.' :: fraction) ++
    'e' :: (if exponent < 0 then '-' else '+') ::
    (List.replicate (2 - size.length) '0' ++ size)

/-- The text of an unsigned decimal. -/
def Style.decimal (style : Style) (decimal : Decimal) : List Char :=
  if decimal.digits = 0 then ['0', '.', '0'] else
    let point := decimal.point
    if style.positional (point - 1) then positionalText decimal.significant point
    else scientificText decimal.significant (point - 1)

def Style.chars (style : Style) : Binary → List Char
  | .nan => style.nan.toList
  | .infinite negative => (if negative then ['-'] else []) ++ style.infinite.toList
  | .finite negative significand exponent =>
    (if negative then ['-'] else []) ++ style.decimal (shortest significand exponent)

def Style.text (style : Style) (x : Float) : String :=
  String.ofList (style.chars (binary x))

end Scriptlet.Number
