import Mathlib.Tactic.LinearCombination
import Scriptlet.Number.Shortest
import Scriptlet.Proofs.Number.Exact

/-! The shortest decimal of a double reads back as that double: every number in the interval that a double
stands for is rounded to the double. -/
namespace Scriptlet.Number

variable {number : ℚ} {exponent unit : Int} {numerator denominator significand whole : Nat}
variable {decimal : Decimal}

/-- Rounding to a whole number. Only an even one is reached from half-way. -/
theorem rounded_eq {top bottom : Nat} (positive : 0 < bottom)
    (above : 2 * whole * bottom ≤ 2 * top + bottom) (below : 2 * top ≤ 2 * whole * bottom + bottom)
    (tie : 2 * whole * bottom = 2 * top + bottom ∨ 2 * top = 2 * whole * bottom + bottom →
      whole % 2 = 0) :
    (if 2 * (top % bottom) < bottom then top / bottom
      else if bottom < 2 * (top % bottom) then top / bottom + 1
      else top / bottom + top / bottom % 2) = whole := by
  have split := Nat.div_add_mod top bottom
  have small := Nat.mod_lt top positive
  generalize top / bottom = quotient at split ⊢
  generalize top % bottom = rest at split small ⊢
  have least : quotient ≤ whole := by
    by_contra short
    have := Nat.mul_le_mul_left bottom (show whole + 1 ≤ quotient by omega)
    rw [Nat.mul_add, Nat.mul_one] at this
    rw [Nat.mul_assoc, Nat.mul_comm whole] at below
    omega
  have most : whole ≤ quotient + 1 := by
    by_contra long
    have := Nat.mul_le_mul_left bottom (show quotient + 2 ≤ whole by omega)
    rw [Nat.mul_add] at this
    rw [Nat.mul_assoc, Nat.mul_comm whole] at above
    omega
  rw [Nat.mul_assoc, Nat.mul_comm whole] at above below tie
  obtain rfl | rfl : whole = quotient ∨ whole = quotient + 1 := by omega
  · split
    · rfl
    · have half : 2 * rest = bottom := by omega
      have even := tie (.inr (by omega))
      rw [if_neg (by omega), even, Nat.add_zero]
  · rw [Nat.mul_add, Nat.mul_one] at above tie
    split
    · omega
    · split
      · rfl
      · have even := tie (.inl (by omega))
        omega

/-- A number that is rounded to so many units. -/
structure Near (number : ℚ) (whole : Nat) (unit : Int) : Prop where
  above : (2 * whole - 1) * 2 ^ unit ≤ 2 * number
  below : 2 * number ≤ (2 * whole + 1) * 2 ^ unit
  tie : 2 * number = (2 * whole - 1) * 2 ^ unit ∨ 2 * number = (2 * whole + 1) * 2 ^ unit →
    whole % 2 = 0

theorem nearestBits_near (some : numerator ≠ 0) (positive : 0 < denominator)
    (magnitude : Magnitude ((numerator : ℚ) / denominator) exponent)
    (near : Near ((numerator : ℚ) / denominator) whole (max (exponent - 52) (-1074))) :
    nearestBits numerator denominator =
      min ((max (exponent - 52) (-1074) + 1074).toNat * 2 ^ 52 + whole) infinityBits := by
  have found := (magnitude_quotient some positive).unique magnitude
  rw [nearestBits, if_neg some]
  simp only [below_iff positive, found]
  generalize max (exponent - 52) (-1074) = unit at near ⊢
  let top := numerator * 2 ^ (-unit).toNat
  let bottom := denominator * 2 ^ unit.toNat
  have power : (0 : ℚ) < 2 ^ unit := zpow_pos two_pos unit
  have positiveRat : (denominator : ℚ) ≠ 0 := by exact_mod_cast positive.ne'
  have scaled : (numerator : ℚ) / denominator * bottom = top * 2 ^ unit := by
    push_cast [top, bottom]
    rw [← zpow_mul_pow unit]
    field_simp
  have bottomPositive : 0 < bottom := Nat.mul_pos positive (Nat.two_pow_pos _)
  have bottomRat : (0 : ℚ) < bottom := by exact_mod_cast bottomPositive
  have order : ∀ {first second : Nat} (left right : ℚ), first * 2 ^ unit = left * bottom →
      second * 2 ^ unit = right * bottom → (first ≤ second ↔ left ≤ right) := by
    intro first second left right sameLeft sameRight
    rw [← Nat.cast_le (α := ℚ), ← mul_le_mul_iff_left₀ power, sameLeft, sameRight,
      mul_le_mul_iff_left₀ bottomRat]
  have sum : ((2 * top + bottom : Nat) : ℚ) * 2 ^ unit =
      (2 * ((numerator : ℚ) / denominator) + 2 ^ unit) * bottom := by
    push_cast
    linear_combination -2 * scaled
  have double : ((2 * top : Nat) : ℚ) * 2 ^ unit = 2 * ((numerator : ℚ) / denominator) * bottom := by
    push_cast
    linear_combination -2 * scaled
  have units : ((2 * whole * bottom : Nat) : ℚ) * 2 ^ unit = 2 * whole * 2 ^ unit * bottom := by
    push_cast
    ring
  have more : ((2 * whole * bottom + bottom : Nat) : ℚ) * 2 ^ unit =
      (2 * whole + 1) * 2 ^ unit * bottom := by
    push_cast
    ring
  have above : 2 * whole * bottom ≤ 2 * top + bottom := (order _ _ units sum).mpr (by linarith [near.above])
  have rounded := rounded_eq bottomPositive above
    ((order _ _ double more).mpr near.below) (by
      rintro (low | high)
      · refine near.tie (.inl ?_)
        have first := (order _ _ units sum).mp low.le
        have second := (order _ _ sum units).mp low.ge
        linarith
      · refine near.tie (.inr ?_)
        exact le_antisymm ((order _ _ double more).mp high.le) ((order _ _ more double).mp high.ge))
  exact congrArg (fun sum => min (_ * 2 ^ 52 + sum) infinityBits) rounded

/-- Whether a number lies in an interval, with the ends or without them. -/
def Rounding.Contains (interval : Rounding) (number : ℚ) : Prop :=
  let unit : ℚ := interval.unitNumerator / interval.unitDenominator
  if interval.closed then interval.low * unit ≤ number ∧ number ≤ interval.high * unit
  else interval.low * unit < number ∧ number < interval.high * unit

def Decimal.value (decimal : Decimal) : ℚ :=
  decimal.digits * 10 ^ decimal.exponent

theorem pow10_cast (count : Nat) : ((pow10 count : Nat) : ℚ) = 10 ^ count := by
  simp [pow10]

theorem ten_zpow_mul_pow (exponent : Int) :
    (10 : ℚ) ^ exponent * 10 ^ (-exponent).toNat = 10 ^ exponent.toNat := by
  rw [← zpow_natCast, ← zpow_natCast, ← zpow_add₀ (by norm_num)]
  congr 1
  omega

/-- The grid test in whole numbers is the test for the number itself. -/
theorem Rounding.holds_iff {interval : Rounding} (positive : 0 < interval.unitDenominator)
    (candidate : Nat) (exponent : Int) :
    interval.holds (interval.unitNumerator * pow10 (-exponent).toNat)
      (interval.unitDenominator * pow10 exponent.toNat) candidate = true ↔
        interval.Contains (⟨candidate, exponent⟩ : Decimal).value := by
  have positiveRat : (0 : ℚ) < interval.unitDenominator := by exact_mod_cast positive
  have power : (0 : ℚ) < 10 ^ (-exponent).toNat := by positivity
  have common : (0 : ℚ) < interval.unitDenominator * 10 ^ (-exponent).toNat := mul_pos positiveRat power
  have place : ((candidate * (interval.unitDenominator * pow10 exponent.toNat) : Nat) : ℚ) =
      candidate * 10 ^ exponent * (interval.unitDenominator * 10 ^ (-exponent).toNat) := by
    push_cast
    rw [pow10_cast, ← ten_zpow_mul_pow]
    ring
  have bound : ∀ end_ : Nat, ((end_ * (interval.unitNumerator * pow10 (-exponent).toNat) : Nat) : ℚ) =
      end_ * (interval.unitNumerator / interval.unitDenominator) *
        (interval.unitDenominator * 10 ^ (-exponent).toNat) := by
    intro end_
    push_cast
    rw [pow10_cast]
    field_simp
  unfold holds Contains Decimal.value
  dsimp only
  split
  · rw [Bool.and_eq_true, decide_eq_true_eq, decide_eq_true_eq, ← Nat.cast_le (α := ℚ),
      ← Nat.cast_le (α := ℚ), place, bound, bound, mul_le_mul_iff_left₀ common,
      mul_le_mul_iff_left₀ common]
  · rw [Bool.and_eq_true, decide_eq_true_eq, decide_eq_true_eq, ← Nat.cast_lt (α := ℚ),
      ← Nat.cast_lt (α := ℚ), place, bound, bound, mul_lt_mul_iff_left₀ common,
      mul_lt_mul_iff_left₀ common]

theorem Rounding.onGrid?_contains {interval : Rounding} (positive : 0 < interval.unitDenominator)
    (found : interval.onGrid? exponent = some decimal) : interval.Contains decimal.value := by
  unfold onGrid? at found
  extract_lets scale grid exact lower upper gap nearest other at found
  split at found
  · rename_i holds
    cases found
    exact (holds_iff positive _ _).mp holds
  · split at found
    · rename_i holds
      cases found
      exact (holds_iff positive _ _).mp holds
    · cases found

theorem exactDecimal_value (significand : Nat) (exponent : Int) :
    (exactDecimal significand exponent).value = significand * 2 ^ exponent := by
  unfold exactDecimal Decimal.value
  split
  · rename_i natural
    obtain ⟨size, rfl⟩ := Int.eq_ofNat_of_zero_le natural
    simp [pow2]
  · rename_i fraction
    obtain ⟨size, rfl⟩ : ∃ size : Nat, exponent = -(size : Int) := ⟨(-exponent).toNat, by omega⟩
    have tens : (10 : ℚ) ^ size = 5 ^ size * 2 ^ size := by
      rw [← mul_pow]
      norm_num
    have fives : ((Nat.pow 5 size : Nat) : ℚ) = 5 ^ size := by
      simp
    dsimp only
    rw [neg_neg, Int.toNat_natCast, Nat.cast_mul, fives, zpow_neg, zpow_neg, zpow_natCast, zpow_natCast,
      tens]
    field_simp

/-- The unit of the interval of a double is a quarter of the unit of the double. -/
theorem ofBinary_unit (significand : Nat) (exponent : Int) :
    ((Rounding.ofBinary significand exponent).unitNumerator : ℚ) /
      (Rounding.ofBinary significand exponent).unitDenominator * 4 = 2 ^ exponent := by
  have unit := zpow_mul_pow (exponent - 2)
  rw [neg_sub] at unit
  have four : (2 : ℚ) ^ exponent = 2 ^ (exponent - 2) * 4 := by
    rw [zpow_sub₀ two_ne_zero]
    norm_num
  unfold Rounding.ofBinary
  dsimp only
  rw [four]
  congr 1
  rw [div_eq_iff (by simp [pow2])]
  simp [pow2, ← unit]

/-- What lies in the interval of a double is rounded to it by its own unit. -/
theorem Rounding.Contains.near
    (contained : (Rounding.ofBinary significand exponent).Contains number) :
    Near number significand exponent := by
  have unit := ofBinary_unit significand exponent
  have low : 4 * significand ≤ (Rounding.ofBinary significand exponent).low + 2 := by
    unfold ofBinary
    dsimp only
    split <;> omega
  have lowRat : 4 * (significand : ℚ) ≤ (Rounding.ofBinary significand exponent).low + 2 := by
    exact_mod_cast low
  have high : ((Rounding.ofBinary significand exponent).high : ℚ) = 4 * significand + 2 := by
    simp [ofBinary]
  have power : (0 : ℚ) < 2 ^ exponent := zpow_pos two_pos exponent
  unfold Contains at contained
  dsimp only at contained
  rw [high] at contained
  generalize ((Rounding.ofBinary significand exponent).unitNumerator : ℚ) / _ = quarter at unit contained
  rw [← unit] at power
  have end_ := mul_le_mul_of_nonneg_right lowRat (by linarith : 0 ≤ quarter)
  split at contained
  · rename_i closed
    have even : significand % 2 = 0 := by simpa [ofBinary] using closed
    obtain ⟨above, below⟩ := contained
    exact ⟨by rw [← unit]; linarith, by rw [← unit]; linarith, fun _ => even⟩
  · obtain ⟨above, below⟩ := contained
    refine ⟨by rw [← unit]; linarith, by rw [← unit]; linarith, ?_⟩
    rintro (tie | tie) <;>
    · rw [← unit] at tie
      linarith

/-- Below a power of two the interval ends half as far away, and what lies there is rounded by the smaller
unit that belongs to the doubles below. -/
theorem Rounding.Contains.narrow (normal : exponent ≠ -1074) (small : number < 2 ^ 52 * 2 ^ exponent)
    (contained : (Rounding.ofBinary (2 ^ 52) exponent).Contains number) :
    Near number (2 ^ 53) (exponent - 1) := by
  have unit := ofBinary_unit (2 ^ 52) exponent
  have low : (Rounding.ofBinary (2 ^ 52) exponent).low = 4 * 2 ^ 52 - 1 := by
    unfold ofBinary
    dsimp only
    rw [if_pos ⟨rfl, normal⟩]
  have closed : (Rounding.ofBinary (2 ^ 52) exponent).closed = true := rfl
  have half : (2 : ℚ) ^ (exponent - 1) * 2 = 2 ^ exponent := by
    rw [← zpow_add_one₀ two_ne_zero, sub_add_cancel]
  unfold Contains at contained
  dsimp only at contained
  rw [if_pos closed, low] at contained
  generalize ((Rounding.ofBinary (2 ^ 52) exponent).unitNumerator : ℚ) / _ = quarter at unit contained
  obtain ⟨above, -⟩ := contained
  push_cast at above
  refine ⟨?_, ?_, fun _ => rfl⟩
  · push_cast
    linarith
  · push_cast
    have positive : (0 : ℚ) < 2 ^ (exponent - 1) := zpow_pos two_pos _
    linarith

/-- A number has as many digits before its point as its place among the powers of ten says. -/
theorem Decimal.value_bounds (some : decimal.digits ≠ 0) :
    (10 : ℚ) ^ (decimal.point - 1) ≤ decimal.value ∧ decimal.value < 10 ^ decimal.point := by
  have counted : 0 < digitCount decimal.digits := Nat.length_toDigits_pos
  have power : (0 : ℚ) < 10 ^ decimal.exponent := zpow_pos (by norm_num) _
  have upper : (decimal.digits : ℚ) < 10 ^ digitCount decimal.digits := by
    exact_mod_cast (digitCount_le_iff counted).mp (Nat.le_refl _)
  have lower : (10 : ℚ) ^ (digitCount decimal.digits - 1) ≤ decimal.digits := by
    by_cases one : digitCount decimal.digits = 1
    · rw [one]
      exact_mod_cast Nat.pos_of_ne_zero some
    · have long : ¬ digitCount decimal.digits ≤ digitCount decimal.digits - 1 := by omega
      rw [digitCount_le_iff (by omega)] at long
      exact_mod_cast Nat.le_of_not_lt long
  unfold point value
  constructor
  · rw [show (digitCount decimal.digits : Int) + decimal.exponent - 1 =
        ((digitCount decimal.digits - 1 : Nat) : Int) + decimal.exponent by omega,
      zpow_add₀ (by norm_num), zpow_natCast]
    exact mul_le_mul_of_nonneg_right lower power.le
  · rw [zpow_add₀ (by norm_num), zpow_natCast]
    exact mul_lt_mul_of_pos_right upper power

/-- Thirteen binary digits are fewer than four decimal ones. -/
theorem two_zpow_lt (bounded : exponent ≤ 1079) : (2 : ℚ) ^ exponent < 10 ^ (332 : Int) :=
  calc (2 : ℚ) ^ exponent ≤ 2 ^ ((13 : Int) * (83 : Nat)) :=
        (zpow_le_zpow_iff_right₀ one_lt_two).mpr (by omega)
    _ = (2 ^ (13 : Int)) ^ 83 := by rw [zpow_mul, zpow_natCast]
    _ < (10 ^ (4 : Int)) ^ 83 := pow_lt_pow_left₀ (by norm_num) (by positivity) (by decide)
    _ = 10 ^ ((4 : Int) * (83 : Nat)) := by rw [zpow_mul, zpow_natCast]
    _ = 10 ^ (332 : Int) := by norm_num only

/-- The size of a decimal that a double is near to is within the range in which it is computed. -/
theorem Decimal.point_bounds (some : decimal.digits ≠ 0) (above : (2 : ℚ) ^ (-1075 : Int) ≤ decimal.value)
    (below : decimal.value < 2 ^ (1024 : Int)) : -340 ≤ decimal.point ∧ decimal.point ≤ 340 := by
  obtain ⟨lower, upper⟩ := Decimal.value_bounds some
  have ten : (1 : ℚ) < 10 := by norm_num
  constructor
  · by_contra tiny
    have least : (10 : ℚ) ^ decimal.point ≤ 10 ^ (-332 : Int) :=
      (zpow_le_zpow_iff_right₀ ten).mpr (by omega)
    have apart : (10 : ℚ) ^ (-332 : Int) < 2 ^ (-1075 : Int) := by
      rw [zpow_neg, zpow_neg, inv_lt_inv₀ (zpow_pos (by norm_num) _) (zpow_pos two_pos _)]
      exact two_zpow_lt (by decide)
    exact absurd (above.trans_lt upper) (not_lt.mpr (least.trans apart.le))
  · by_contra huge
    have most : (10 : ℚ) ^ (332 : Int) ≤ 10 ^ (decimal.point - 1) :=
      (zpow_le_zpow_iff_right₀ ten).mpr (by omega)
    have apart : (2 : ℚ) ^ (1024 : Int) < 10 ^ (332 : Int) := two_zpow_lt (by decide)
    exact absurd (lower.trans_lt below) (not_lt.mpr (apart.le.trans most))

theorem Decimal.value_quotient (decimal : Decimal) :
    ((decimal.digits * pow10 decimal.exponent.toNat : Nat) : ℚ) /
      (pow10 (-decimal.exponent).toNat : Nat) = decimal.value := by
  have power : (10 : ℚ) ^ (-decimal.exponent).toNat ≠ 0 := pow_ne_zero _ (by norm_num)
  rw [value, Nat.cast_mul, pow10_cast, pow10_cast, ← ten_zpow_mul_pow, div_eq_iff power, mul_assoc]

theorem Magnitude.lt (magnitude : Magnitude number exponent) (below : number < 2 ^ unit) :
    exponent < unit :=
  (zpow_lt_zpow_iff_right₀ one_lt_two).mp (magnitude.1.trans_lt below)

theorem Magnitude.le (magnitude : Magnitude number exponent) (above : 2 ^ unit ≤ number) :
    unit ≤ exponent :=
  Int.lt_add_one_iff.mp ((zpow_lt_zpow_iff_right₀ one_lt_two).mp (above.trans_lt magnitude.2))

theorem zpow_two_add (count : Nat) (exponent : Int) :
    (2 : ℚ) ^ ((count : Int) + exponent) = 2 ^ count * 2 ^ exponent := by
  rw [zpow_add₀ two_ne_zero, zpow_natCast]

/-- What is rounded to a double that is not zero is neither too small nor too large for one. -/
theorem Near.bounds (near : Near number significand exponent) (present : significand ≠ 0)
    (fits : significand < 2 ^ 53) (least : -1074 ≤ exponent) :
    (2 : ℚ) ^ (-1075 : Int) ≤ number ∧ number < 2 ^ (53 + exponent) := by
  have one : (1 : ℚ) ≤ significand := by exact_mod_cast Nat.pos_of_ne_zero present
  have power : (0 : ℚ) < 2 ^ exponent := zpow_pos two_pos exponent
  constructor
  · have smallest : (2 : ℚ) ^ (-1074 : Int) ≤ 2 ^ exponent :=
      (zpow_le_zpow_iff_right₀ one_lt_two).mpr least
    have half : (2 : ℚ) ^ (-1075 : Int) * 2 = 2 ^ (-1074 : Int) := by
      rw [← zpow_add_one₀ two_ne_zero]
      norm_num
    nlinarith [near.above]
  · have size : (significand : ℚ) + 1 ≤ 2 ^ 53 := by exact_mod_cast fits
    rw [show (53 : Int) = (53 : Nat) from rfl, zpow_two_add]
    nlinarith [near.below]

/-- Only from the power of two itself can rounding lead down to the smaller doubles. -/
theorem Near.eq_power (near : Near number significand exponent) (large : 2 ^ 52 ≤ significand)
    (low : number < 2 ^ 52 * 2 ^ exponent) : significand = 2 ^ 52 := by
  have power : (0 : ℚ) < 2 ^ exponent := zpow_pos two_pos exponent
  by_contra more
  have largeRat : (2 : ℚ) ^ 52 + 1 ≤ significand := by
    exact_mod_cast (by omega : 2 ^ 52 + 1 ≤ significand)
  nlinarith [near.above]

/-- The bits of a decimal in the range of the doubles are those of the units that it is rounded to. -/
theorem Decimal.nearestBits_near (least : (2 : ℚ) ^ (-1075 : Int) ≤ decimal.value)
    (most : decimal.value < 2 ^ (1024 : Int)) :
    ∃ magnitude, Magnitude decimal.value magnitude ∧
      ∀ whole, Near decimal.value whole (max (magnitude - 52) (-1074)) → decimal.nearestBits =
        min ((max (magnitude - 52) (-1074) + 1074).toNat * 2 ^ 52 + whole) infinityBits := by
  have some : decimal.digits ≠ 0 := by
    intro none
    have zero : decimal.value = 0 := by rw [value, none, Nat.cast_zero, zero_mul]
    rw [zero] at least
    exact absurd least (not_le.mpr (zpow_pos two_pos _))
  obtain ⟨notTiny, notHuge⟩ := Decimal.point_bounds some least most
  have numerator : decimal.digits * pow10 decimal.exponent.toNat ≠ 0 :=
    Nat.mul_ne_zero some (Nat.pow_pos (by decide)).ne'
  have positive : 0 < pow10 (-decimal.exponent).toNat := Nat.pow_pos (by decide)
  have found := magnitude_quotient numerator positive
  rw [nearestBits, if_neg (by omega), if_neg (by omega)]
  refine ⟨_, by rw [← value_quotient]; exact found, fun whole near => ?_⟩
  rw [← value_quotient] at near
  exact Number.nearestBits_near numerator positive found near

/-- A decimal in the interval of a double has the bits of the double. -/
theorem nearestBits_contains (present : significand ≠ 0) (canonical : Canonical significand exponent)
    (bounded : exponent ≤ 971)
    (contained : (Rounding.ofBinary significand exponent).Contains decimal.value) :
    decimal.nearestBits = (exponent + 1074).toNat * 2 ^ 52 + significand := by
  have size : significand < 2 ^ 53 ∧ -1074 ≤ exponent := by
    rcases canonical with ⟨small, rfl⟩ | ⟨-, small, least⟩ <;> omega
  have near := contained.near
  obtain ⟨least, below⟩ := near.bounds present size.1 size.2
  have most : decimal.value < 2 ^ (1024 : Int) :=
    below.trans_le ((zpow_le_zpow_iff_right₀ one_lt_two).mpr (by omega))
  obtain ⟨magnitude, found, rounded⟩ := Decimal.nearestBits_near least most
  have limit : infinityBits = 2047 * 2 ^ 52 := rfl
  -- unless the decimal is below a power of two, its own unit is that of the double
  have own : max (magnitude - 52) (-1074) = exponent →
      decimal.nearestBits = (exponent + 1074).toNat * 2 ^ 52 + significand := by
    intro unit
    rw [rounded significand (by rwa [unit]), unit]
    omega
  by_cases low : decimal.value < 2 ^ (52 + exponent)
  · have less := found.lt low
    rcases canonical with ⟨-, rfl⟩ | ⟨large, -, -⟩
    · exact own (by omega)
    · by_cases smallest : exponent = -1074
      · exact own (by omega)
      · rw [show (52 : Int) = (52 : Nat) from rfl, zpow_two_add] at low
        obtain rfl := near.eq_power large low
        have narrow := contained.narrow smallest low
        have above : (2 : ℚ) ^ (51 + exponent) ≤ decimal.value := by
          have power : (0 : ℚ) < 2 ^ exponent := zpow_pos two_pos exponent
          have lower := near.above
          push_cast at lower
          rw [show (51 : Int) = (51 : Nat) from rfl, zpow_two_add]
          nlinarith
        have more := found.le above
        have unit : max (magnitude - 52) (-1074) = exponent - 1 := by omega
        rw [rounded (2 ^ 53) (by rwa [unit]), unit]
        omega
  · have more := found.le (not_lt.mp low)
    have less := found.lt below
    exact own (by omega)

/-- The shortest decimal of a double has the bits of the double. -/
theorem shortest_contains (present : significand ≠ 0) :
    (Rounding.ofBinary significand exponent).Contains (shortest significand exponent).value := by
  have positive : 0 < (Rounding.ofBinary significand exponent).unitDenominator := Nat.two_pow_pos _
  unfold shortest
  rw [if_neg present]
  dsimp only
  split
  · rename_i decimal found
    obtain ⟨places, -, placed⟩ := List.exists_of_findSome?_eq_some found
    exact Rounding.onGrid?_contains positive placed
  · have unit := ofBinary_unit significand exponent
    have power : (0 : ℚ) < 2 ^ exponent := zpow_pos two_pos exponent
    have low : (Rounding.ofBinary significand exponent).low < 4 * significand := by
      unfold Rounding.ofBinary
      dsimp only
      split <;> omega
    have lowRat : ((Rounding.ofBinary significand exponent).low : ℚ) < 4 * significand := by
      exact_mod_cast low
    have high : ((Rounding.ofBinary significand exponent).high : ℚ) = 4 * significand + 2 := by
      simp [Rounding.ofBinary]
    rw [exactDecimal_value, ← unit]
    unfold Rounding.Contains
    dsimp only
    rw [high]
    generalize ((Rounding.ofBinary significand exponent).unitNumerator : ℚ) / _ = quarter at unit
    rw [← unit] at power
    split
    · constructor <;> nlinarith
    · constructor <;> nlinarith

end Scriptlet.Number
