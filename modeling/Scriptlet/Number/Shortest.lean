import Scriptlet.Number.Decimal

/-! The shortest decimal that reads back as a given double. The reals that round to
`significand * 2 ^ exponent` form an interval; among the decimals of few digits inside it, the one
nearest to the double is chosen. Everything is counted in quarters of the double's unit, so all
arithmetic is exact. -/
namespace Scriptlet.Number

/-- The reals that round to one double, as multiples of a common unit. The ends belong to the
interval when the significand is even. -/
structure Rounding where
  low : Nat
  value : Nat
  high : Nat
  closed : Bool
  unitNumerator : Nat
  unitDenominator : Nat

/-- Below a power of two the doubles lie twice as close, except at the smallest exponent. -/
def Rounding.ofBinary (significand : Nat) (exponent : Int) : Rounding :=
  let narrow := significand = pow2 52 ∧ exponent ≠ -1074
  { low := 4 * significand - if narrow then 1 else 2
    value := 4 * significand
    high := 4 * significand + 2
    closed := significand % 2 == 0
    unitNumerator := pow2 (exponent - 2).toNat
    unitDenominator := pow2 (2 - exponent).toNat }

/-- Whether `candidate / grid` lies in the interval; `scale` is the interval's unit on that grid. -/
def Rounding.holds (interval : Rounding) (scale grid candidate : Nat) : Bool :=
  let place := candidate * grid
  if interval.closed then
    decide (interval.low * scale ≤ place) && decide (place ≤ interval.high * scale)
  else decide (interval.low * scale < place) && decide (place < interval.high * scale)

/-- The decimal exponent of the leading digit. -/
def Rounding.leading (interval : Rounding) : Int :=
  let numerator := interval.value * interval.unitNumerator
  let denominator := interval.unitDenominator
  if denominator ≤ numerator then digitCount (numerator / denominator) - 1
  else
    let reach := digitCount (denominator / numerator)
    if denominator = numerator * pow10 (reach - 1) then 1 - (reach : Int) else -(reach : Int)

/-- The value's neighbours among the multiples of `10 ^ exponent` that read back as it: the nearer
one, an even one if both are equally near. -/
def Rounding.onGrid? (interval : Rounding) (exponent : Int) : Option Decimal :=
  let scale := interval.unitNumerator * pow10 (-exponent).toNat
  let grid := interval.unitDenominator * pow10 exponent.toNat
  let exact := interval.value * scale
  let lower := exact / grid
  let upper := lower + 1
  let gap := 2 * (exact % grid)
  let nearest := if gap < grid then lower else if grid < gap then upper else lower + lower % 2
  let other := if nearest = lower then upper else lower
  if interval.holds scale grid nearest then some ⟨nearest, exponent⟩
  else if interval.holds scale grid other then some ⟨other, exponent⟩
  else none

/-- All digits of a double. Every power of two divides a power of ten, so they are finitely many. -/
def exactDecimal (significand : Nat) (exponent : Int) : Decimal :=
  if 0 ≤ exponent then ⟨significand * pow2 exponent.toNat, 0⟩
  else ⟨significand * Nat.pow 5 (-exponent).toNat, exponent⟩

/-- The fewest digits that read back as `significand * 2 ^ exponent`. Seventeen are enough; were they
not, all digits would still read back. -/
def shortest (significand : Nat) (exponent : Int) : Decimal :=
  if significand = 0 then ⟨0, 0⟩ else
    let interval := Rounding.ofBinary significand exponent
    let leading := interval.leading
    match (List.range 17).findSome? fun (places : Nat) => interval.onGrid? (leading - places) with
    | some decimal => decimal
    | none => exactDecimal significand exponent

end Scriptlet.Number
