import Scriptlet.Scalar
import Scriptlet.Proofs.Number.ReadBack

/-! What doubles stand for. Two of them are equal exactly when they stand for the same number or the same
infinity, and a double is equal to an integer exactly when the integer is the number that it stands for. -/
namespace Scriptlet.Number

variable {negative opposite : Bool} {significand other : Nat} {exponent unit : Int}
variable {magnitude size : ℚ}

/-- An exact number, or an infinity of either sign. -/
inductive Quantity where
  | exact (value : ℚ)
  | infinite (negative : Bool)

def signed (negative : Bool) (magnitude : ℚ) : ℚ :=
  if negative then -magnitude else magnitude

/-- What a double stands for, unless it is a NaN. -/
def Binary.quantity? : Binary → Option Quantity
  | .nan => none
  | .infinite negative => some (.infinite negative)
  | .finite negative significand exponent =>
    some (.exact (signed negative (significand * 2 ^ exponent)))

/-- Only zero may have either sign. -/
theorem signed_eq_iff (positive : 0 ≤ magnitude) (natural : 0 ≤ size) :
    signed negative magnitude = signed opposite size ↔
      magnitude = 0 ∧ size = 0 ∨ negative = opposite ∧ magnitude = size := by
  have zeros : magnitude = 0 ∧ size = 0 → magnitude = size := fun both => both.1.trans both.2.symm
  have opposed : -magnitude = size ↔ magnitude = 0 ∧ size = 0 := by
    rw [neg_eq_iff_add_eq_zero, add_eq_zero_iff_of_nonneg positive natural]
  cases negative with
  | false =>
    cases opposite with
    | false => simpa [signed] using zeros
    | true => simpa [signed, eq_neg_iff_add_eq_zero, neg_eq_iff_add_eq_zero] using opposed
  | true =>
    cases opposite with
    | false => simpa [signed] using opposed
    | true => simpa [signed] using zeros

/-- No two canonical pairs stand for the same number, unless it is zero. -/
theorem Canonical.unique (canonical : Canonical significand exponent) (another : Canonical other unit)
    (some : significand ≠ 0) (same : (significand : ℚ) * 2 ^ exponent = other * 2 ^ unit) :
    significand = other ∧ exponent = unit := by
  have power : (2 : ℚ) ^ exponent ≠ 0 := zpow_ne_zero _ two_ne_zero
  have present : other ≠ 0 := by
    rintro rfl
    rw [Nat.cast_zero, zero_mul, mul_eq_zero, Nat.cast_eq_zero] at same
    exact same.elim some power
  have first := (magnitude_log2 some).scale exponent
  have second := (magnitude_log2 present).scale unit
  rw [← same] at second
  have exponents : exponent = unit := by
    rw [← canonical.unit some, ← another.unit present, first.unique second]
  subst exponents
  have significands := mul_right_cancel₀ power same
  exact ⟨Nat.cast_injective significands, rfl⟩

/-- Finite doubles stand for the same number exactly when both are zeros or all their fields are the same. -/
theorem finite_eq_iff (canonical : Canonical significand exponent) (another : Canonical other unit) :
    signed negative (significand * 2 ^ exponent) = signed opposite (other * 2 ^ unit) ↔
      significand = 0 ∧ other = 0 ∨
        negative = opposite ∧ significand = other ∧ exponent = unit := by
  have power : (0 : ℚ) < 2 ^ exponent := zpow_pos two_pos exponent
  have scale : (0 : ℚ) < 2 ^ unit := zpow_pos two_pos unit
  have positive : (0 : ℚ) ≤ significand * 2 ^ exponent := mul_nonneg (Nat.cast_nonneg _) power.le
  have natural : (0 : ℚ) ≤ other * 2 ^ unit := mul_nonneg (Nat.cast_nonneg _) scale.le
  rw [signed_eq_iff positive natural, mul_eq_zero, mul_eq_zero, Nat.cast_eq_zero, Nat.cast_eq_zero,
    or_iff_left power.ne', or_iff_left scale.ne']
  constructor
  · rintro (zeros | ⟨signs, same⟩)
    · exact .inl zeros
    · by_cases none : significand = 0
      · subst none
        rw [Nat.cast_zero, zero_mul, eq_comm, mul_eq_zero, Nat.cast_eq_zero, or_iff_left scale.ne'] at same
        exact .inl ⟨rfl, same⟩
      · exact .inr ⟨signs, canonical.unique another none same⟩
  · rintro (zeros | ⟨signs, rfl, rfl⟩)
    · exact .inl zeros
    · exact .inr ⟨signs, rfl⟩

theorem isNaN_iff (x : Float) : isNaN x = true ↔ (binary x).quantity? = none := by
  unfold isNaN
  cases binary x <;> simp [Binary.quantity?]

/-- A zero of either sign stands for the number zero. -/
theorem isZero_iff (x : Float) : isZero x = true ↔ (binary x).quantity? = some (.exact 0) := by
  unfold isZero
  cases shape : binary x with
  | finite negative significand exponent =>
    have power : (2 : ℚ) ^ exponent ≠ 0 := zpow_ne_zero _ two_ne_zero
    cases negative <;> simp [Binary.quantity?, signed, power]
  | _ => simp [Binary.quantity?]

/-- Equal doubles are those that stand for the same. -/
theorem equal_iff (x y : Float) : equal x y = true ↔
    ∃ quantity, (binary x).quantity? = some quantity ∧ (binary y).quantity? = some quantity := by
  unfold equal isNaN isZero
  cases shape : binary x with
  | nan => simp [Binary.quantity?]
  | infinite negative =>
    cases binary y with
    | infinite opposite => simp [Binary.quantity?, @eq_comm _ opposite]
    | _ => simp [Binary.quantity?]
  | finite negative significand exponent =>
    cases shape' : binary y with
    | finite opposite other unit =>
      have same : signed negative (significand * 2 ^ exponent) =
          signed opposite (other * 2 ^ unit) ↔ _ :=
        finite_eq_iff (binary_finite shape).1 (binary_finite shape').1
      simpa [Binary.quantity?, same.symm] using eq_comm
    | _ => simp [Binary.quantity?]

/-- The comparison of a number of units with an integer that is made in whole numbers. -/
theorem units_eq_iff (whole n : Int) (exponent : Int) :
    (if 0 ≤ exponent then whole * (pow2 exponent.toNat : Int) == n
      else whole == n * (pow2 (-exponent).toNat : Int)) = true ↔ (whole : ℚ) * 2 ^ exponent = n := by
  by_cases natural : 0 ≤ exponent
  · obtain ⟨size, rfl⟩ := Int.eq_ofNat_of_zero_le natural
    rw [if_pos natural, beq_iff_eq, Int.toNat_natCast, zpow_natCast]
    exact_mod_cast Iff.rfl
  · obtain ⟨size, rfl⟩ : ∃ size : Nat, exponent = -(size : Int) := ⟨(-exponent).toNat, by omega⟩
    have power : (2 : ℚ) ^ size ≠ 0 := by positivity
    rw [if_neg natural, beq_iff_eq, neg_neg, Int.toNat_natCast, zpow_neg, zpow_natCast,
      ← div_eq_mul_inv, div_eq_iff power]
    exact_mod_cast Iff.rfl

theorem equalsInteger_iff (x : Float) (n : Int) :
    equalsInteger x n = true ↔ (binary x).quantity? = some (.exact n) := by
  unfold equalsInteger
  cases binary x with
  | finite negative significand exponent =>
    dsimp only
    rw [units_eq_iff]
    have sign : ((if negative then -significand else significand : Int) : ℚ) * 2 ^ exponent =
        signed negative (significand * 2 ^ exponent) := by
      cases negative <;> simp [signed]
    rw [sign]
    simp [Binary.quantity?]
  | _ => simp [Binary.quantity?]

end Scriptlet.Number
