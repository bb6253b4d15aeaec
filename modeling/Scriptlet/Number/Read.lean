import Scriptlet.Number.Decimal
import Scriptlet.Text.Numeral
import Scriptlet.Text.Blank

/-! Reading numbers from text. The full form has an optional sign, digits of any script with single
underscores between them, an optional fraction and exponent, or one of the names of the values that
are not finite, with white space around it. The numeric literals of a program are a small part of
this form. -/
namespace Scriptlet.Number

/-- Positional value of digits, most significant first. -/
def digitsValue (digits : List Char) : Nat :=
  digits.foldl (fun value digit => 10 * value + (digit.toNat - '0'.toNat)) 0

/-- White space that may surround a number. -/
def surrounds (c : Char) : Bool :=
  Text.isWhite c && !(0x1C ≤ c.toNat && c.toNat ≤ 0x1F)

/-- Digits of other scripts as ASCII digits, and white space beyond ASCII as spaces. -/
def toAscii (c : Char) : Char :=
  if c.toNat < 127 then c
  else if Text.isWhite c then ' '
  else match Text.digitValue? c with
    | some value => Char.ofNat ('0'.toNat + value)
    | none => c

def stripSpace (text : List Char) : List Char :=
  ((text.dropWhile surrounds).reverse.dropWhile surrounds).reverse

/-- Removes the underscores if each stands between two digits. -/
def joinDigits? (before : Char) : List Char → Option (List Char)
  | [] => if before == '_' then none else some []
  | c :: rest =>
    if c == '_' then
      if Text.isDigit before then joinDigits? c rest else none
    else if before == '_' && !Text.isDigit c then none
    else (joinDigits? c rest).map (c :: ·)

def splitSign : List Char → Bool × List Char
  | '-' :: rest => (true, rest)
  | '+' :: rest => (false, rest)
  | rest => (false, rest)

/-- What follows the significant digits: nothing, or an exponent. -/
def readExponent? : List Char → Option Int
  | [] => some 0
  | c :: rest =>
    if c == 'e' || c == 'E' then
      let (negative, digits) := splitSign rest
      if digits.isEmpty || !digits.all Text.isDigit then none
      else some (if negative then -digitsValue digits else digitsValue digits)
    else none

/-- A decimal without sign: digits, a fraction with or without digits before it, an exponent. -/
def readDecimal? (text : List Char) : Option Decimal :=
  let whole := text.takeWhile Text.isDigit
  let afterWhole := text.dropWhile Text.isDigit
  let (fraction, afterFraction) :=
    match afterWhole with
    | '.' :: rest => (rest.takeWhile Text.isDigit, rest.dropWhile Text.isDigit)
    | _ => ([], afterWhole)
  if whole.isEmpty && fraction.isEmpty then none
  else (readExponent? afterFraction).map fun exponent =>
    ⟨digitsValue (whole ++ fraction), exponent - fraction.length⟩

def lower (text : List Char) : List Char :=
  text.map Char.toLower

/-- The double that a text names, if it is a number at all. -/
def read? (text : String) : Option Float :=
  (joinDigits? ' ' (stripSpace (text.toList.map toAscii))).bind fun joined =>
    let (negative, unsigned) := splitSign joined
    if lower unsigned == "inf".toList || lower unsigned == "infinity".toList then
      some (ofSignedBits negative infinityBits)
    else if lower unsigned == "nan".toList then
      some (ofSignedBits negative (infinityBits + pow2 51))
    else (readDecimal? unsigned).map (Decimal.toFloat negative)

end Scriptlet.Number
