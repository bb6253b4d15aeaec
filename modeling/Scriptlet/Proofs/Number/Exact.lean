import Mathlib.Data.Int.Log
import Mathlib.Tactic.FieldSimp
import Mathlib.Tactic.Linarith
import Mathlib.Tactic.Positivity
import Mathlib.Tactic.Ring
import Scriptlet.Proofs.Number.Reading

/-! Every double without a sign is written by some numeric literal. A finite double has finitely many
decimal digits, and the double nearest to the number that all of them name is the double itself. -/
namespace Scriptlet.Number

variable {value : ℚ} {exponent other : Int} {numerator denominator significand : Nat}

/-- The largest power of two that is at most a positive number. -/
def Magnitude (value : ℚ) (exponent : Int) : Prop :=
  (2 : ℚ) ^ exponent ≤ value ∧ value < (2 : ℚ) ^ (exponent + 1)

theorem Magnitude.unique (first : Magnitude value exponent) (second : Magnitude value other) :
    exponent = other := by
  have below : exponent < other + 1 :=
    (zpow_lt_zpow_iff_right₀ one_lt_two).mp (first.1.trans_lt second.2)
  have above : other < exponent + 1 :=
    (zpow_lt_zpow_iff_right₀ one_lt_two).mp (second.1.trans_lt first.2)
  omega

theorem magnitude_log2 {n : Nat} (some : n ≠ 0) : Magnitude n n.log2 := by
  constructor
  · exact_mod_cast Nat.log2_self_le some
  · exact_mod_cast Nat.lt_log2_self

theorem Magnitude.scale (whole : Magnitude value exponent) (shift : Int) :
    Magnitude (value * 2 ^ shift) (exponent + shift) := by
  have positive : (0 : ℚ) < 2 ^ shift := zpow_pos two_pos shift
  constructor
  · rw [zpow_add₀ two_ne_zero]
    exact mul_le_mul_of_nonneg_right whole.1 positive.le
  · rw [add_right_comm, zpow_add₀ two_ne_zero]
    exact mul_lt_mul_of_pos_right whole.2 positive

/-- The comparison with a power of two that is made in whole numbers. -/
theorem below_iff (positive : 0 < denominator) (exponent : Int) :
    (if 0 ≤ exponent then decide (numerator < denominator * pow2 exponent.toNat)
      else decide (numerator * pow2 (-exponent).toNat < denominator)) = true ↔
      (numerator : ℚ) / denominator < 2 ^ exponent := by
  have positiveRat : (0 : ℚ) < denominator := by exact_mod_cast positive
  rw [div_lt_iff₀ positiveRat]
  by_cases natural : 0 ≤ exponent
  · obtain ⟨size, rfl⟩ := Int.eq_ofNat_of_zero_le natural
    rw [if_pos natural, decide_eq_true_eq, Int.toNat_natCast, zpow_natCast, mul_comm]
    exact_mod_cast Iff.rfl
  · obtain ⟨size, rfl⟩ : ∃ size : Nat, exponent = -(size : Int) := ⟨(-exponent).toNat, by omega⟩
    have power : (0 : ℚ) < 2 ^ size := by positivity
    rw [if_neg natural, decide_eq_true_eq, neg_neg, Int.toNat_natCast, zpow_neg, zpow_natCast,
      inv_mul_eq_div, lt_div_iff₀ power]
    exact_mod_cast Iff.rfl

/-- The magnitude of a quotient is the difference of those of its parts, or one less. -/
theorem magnitude_quotient (some : numerator ≠ 0) (positive : 0 < denominator) :
    let guess : Int := (numerator.log2 : Int) - denominator.log2
    Magnitude ((numerator : ℚ) / denominator)
      (if (numerator : ℚ) / denominator < 2 ^ guess then guess - 1 else guess) := by
  intro guess
  have top := magnitude_log2 some
  have bottom := magnitude_log2 (Nat.pos_iff_ne_zero.mp positive)
  have positiveRat : (0 : ℚ) < denominator := by exact_mod_cast positive
  have upper : (numerator : ℚ) / denominator < 2 ^ (guess + 1) := by
    rw [div_lt_iff₀ positiveRat]
    calc (numerator : ℚ) < 2 ^ ((numerator.log2 : Int) + 1) := top.2
      _ = 2 ^ (guess + 1) * 2 ^ (denominator.log2 : Int) := by
        rw [← zpow_add₀ two_ne_zero]
        congr 1
        omega
      _ ≤ 2 ^ (guess + 1) * denominator := by
        exact mul_le_mul_of_nonneg_left bottom.1 (zpow_pos two_pos _).le
  have lower : 2 ^ (guess - 1) ≤ (numerator : ℚ) / denominator := by
    rw [le_div_iff₀ positiveRat]
    calc (2 : ℚ) ^ (guess - 1) * denominator
        ≤ 2 ^ (guess - 1) * 2 ^ ((denominator.log2 : Int) + 1) := by
          exact mul_le_mul_of_nonneg_left bottom.2.le (zpow_pos two_pos _).le
      _ = 2 ^ (numerator.log2 : Int) := by
        rw [← zpow_add₀ two_ne_zero]
        congr 1
        omega
      _ ≤ numerator := top.1
  split
  · rename_i below
    exact ⟨lower, by rwa [sub_add_cancel]⟩
  · rename_i above
    exact ⟨not_lt.mp above, upper⟩

/-- A power of two is a whole number or one over a whole number. -/
theorem zpow_mul_pow (exponent : Int) :
    (2 : ℚ) ^ exponent * 2 ^ (-exponent).toNat = 2 ^ exponent.toNat := by
  rw [← zpow_natCast, ← zpow_natCast, ← zpow_add₀ two_ne_zero]
  congr 1
  omega

theorem quotient_exact (positive : 0 < denominator)
    (exact : numerator * 2 ^ (-exponent).toNat = significand * (denominator * 2 ^ exponent.toNat)) :
    (numerator : ℚ) / denominator = significand * 2 ^ exponent := by
  have positiveRat : (denominator : ℚ) ≠ 0 := by exact_mod_cast positive.ne'
  have power : (2 : ℚ) ^ (-exponent).toNat ≠ 0 := pow_ne_zero _ two_ne_zero
  have exactRat : (numerator : ℚ) * 2 ^ (-exponent).toNat =
      significand * (denominator * 2 ^ exponent.toNat) := by exact_mod_cast exact
  rw [div_eq_iff positiveRat]
  apply mul_right_cancel₀ power
  rw [exactRat, ← zpow_mul_pow exponent]
  ring

/-- The significand of a double has fifty-three bits, or fewer at the smallest exponent. -/
def Canonical (significand : Nat) (exponent : Int) : Prop :=
  significand < 2 ^ 52 ∧ exponent = -1074 ∨
    2 ^ 52 ≤ significand ∧ significand < 2 ^ 53 ∧ -1074 ≤ exponent

theorem Canonical.unit (canonical : Canonical significand exponent) (some : significand ≠ 0) :
    max ((significand.log2 : Int) + exponent - 52) (-1074) = exponent := by
  rcases canonical with ⟨small, rfl⟩ | ⟨large, bounded, above⟩
  · have log := (Nat.log2_lt some).mpr small
    omega
  · have log := (Nat.log2_eq_iff some).mpr ⟨large, bounded⟩
    omega

/-- A number that is a double is nearest to itself. -/
theorem nearestBits_exact (some : significand ≠ 0) (positive : 0 < denominator)
    (exact : numerator * 2 ^ (-exponent).toNat = significand * (denominator * 2 ^ exponent.toNat))
    (canonical : Canonical significand exponent) :
    nearestBits numerator denominator =
      min ((exponent + 1074).toNat * 2 ^ 52 + significand) infinityBits := by
  have bottom : 0 < denominator * 2 ^ exponent.toNat := Nat.mul_pos positive (Nat.two_pow_pos _)
  have present : numerator ≠ 0 := by
    rintro rfl
    rw [Nat.zero_mul] at exact
    exact absurd exact.symm (Nat.mul_ne_zero some bottom.ne')
  have found := magnitude_quotient present positive
  have named := (magnitude_log2 some).scale exponent
  rw [← quotient_exact positive exact] at named
  have magnitude := found.unique named
  rw [nearestBits, if_neg present]
  simp only [below_iff positive, magnitude, canonical.unit some]
  change min (_ * 2 ^ 52 + if 2 * (numerator * 2 ^ _ % (denominator * 2 ^ _)) < denominator * 2 ^ _
    then _ else _) _ = _
  rw [exact, Nat.mul_mod_left, Nat.mul_zero, if_pos bottom]
  change min (_ * 2 ^ 52 + numerator * 2 ^ _ / (denominator * 2 ^ _)) _ = _
  rw [exact, Nat.mul_div_cancel _ bottom]

/-- The fields of the bits of a finite double. -/
theorem exists_canonical (finite : bits < infinityBits) (some : bits ≠ 0) :
    ∃ significand exponent, significand ≠ 0 ∧ Canonical significand exponent ∧ exponent ≤ 971 ∧
      bits = (exponent + 1074).toNat * 2 ^ 52 + significand := by
  have limit : infinityBits = 2047 * 2 ^ 52 := rfl
  by_cases small : bits < 2 ^ 52
  · exact ⟨bits, -1074, some, .inl ⟨small, rfl⟩, by omega, by omega⟩
  · refine ⟨bits % 2 ^ 52 + 2 ^ 52, (bits / 2 ^ 52 : Nat) - 1075, by omega, .inr ?_, ?_, ?_⟩
    · refine ⟨by omega, by omega, by omega⟩
    · omega
    · omega

theorem digitsValue_toDigits (n : Nat) : digitsValue (Nat.toDigits 10 n) = n :=
  Nat.ofDigitChars_ten_toDigits

/-- Zeros in front of a number do not change it. -/
theorem digitsValue_padded (zeros : Nat) (digits : List Char) :
    digitsValue (List.replicate zeros '0' ++ digits) = digitsValue digits := by
  change Nat.ofDigitChars 10 _ 0 = Nat.ofDigitChars 10 _ 0
  rw [Nat.ofDigitChars_append, Nat.ofDigitChars_replicate_zero, Nat.mul_zero]

theorem toDigits_digits (n : Nat) : ∀ c ∈ Nat.toDigits 10 n, Text.isDigit c := by
  intro c member
  have digit := Nat.isDigit_of_mem_toDigits (by decide) (by decide) member
  simpa [Text.isDigit, Char.isDigit, Char.le_def] using digit

/-- A decimal that some numeric literal is written with. -/
theorem exists_literal (digits places : Nat) :
    ∃ whole fraction, whole ≠ [] ∧ (∀ c ∈ whole ++ fraction, Text.isDigit c) ∧
      digitsValue (whole ++ fraction) = digits ∧ fraction.length = places := by
  let text := List.replicate (places + 1) '0' ++ Nat.toDigits 10 digits
  have long : places < text.length := by
    simp only [text, List.length_append, List.length_replicate]
    omega
  refine ⟨text.take (text.length - places), text.drop (text.length - places), ?_, ?_, ?_, ?_⟩
  · apply List.ne_nil_of_length_pos
    rw [List.length_take]
    omega
  · rw [List.take_append_drop]
    intro c member
    rcases List.mem_append.mp member with zero | digit
    · rw [List.eq_of_mem_replicate zero]
      decide
    · exact toDigits_digits digits c digit
  · rw [List.take_append_drop, digitsValue_padded, digitsValue_toDigits]
  · rw [List.length_drop]
    omega

theorem digitCount_le_iff (some : 0 < count) : digitCount n ≤ count ↔ n < 10 ^ count :=
  Nat.length_toDigits_le_iff (by decide) some

/-- The shortcuts are not taken for a decimal of ordinary size. -/
theorem Decimal.nearestBits_moderate {digits places : Nat} (some : digits ≠ 0)
    (large : 10 ^ places ≤ digits * 10 ^ 340) (small : digits < 10 ^ (places + 340)) :
    (⟨digits, -places⟩ : Decimal).nearestBits = Number.nearestBits digits (10 ^ places) := by
  have upper : digitCount digits ≤ places + 340 := (digitCount_le_iff (by omega)).mpr small
  have lower : places ≤ digitCount digits + 340 := by
    by_contra short
    have fits : digits < 10 ^ digitCount digits :=
      (digitCount_le_iff Nat.length_toDigits_pos).mp (Nat.le_refl _)
    have reached : digits * 10 ^ 340 < 10 ^ places :=
      calc digits * 10 ^ 340 < 10 ^ digitCount digits * 10 ^ 340 :=
            Nat.mul_lt_mul_of_pos_right fits (Nat.pow_pos (by decide))
        _ = 10 ^ (digitCount digits + 340) := (Nat.pow_add ..).symm
        _ ≤ 10 ^ places := Nat.pow_le_pow_right (by decide) (by omega)
    omega
  have point : (⟨digits, -places⟩ : Decimal).point = (digitCount digits : Int) - places := rfl
  have notTiny : ¬ (digits = 0 ∨ (⟨digits, -places⟩ : Decimal).point < -340) := by
    rw [point]
    omega
  have notHuge : ¬ 340 < (⟨digits, -places⟩ : Decimal).point := by
    rw [point]
    omega
  rw [Decimal.nearestBits, if_neg notTiny, if_neg notHuge]
  have whole : (-(places : Int)).toNat = 0 := by omega
  have parts : (-(-(places : Int))).toNat = places := by omega
  dsimp only
  rw [whole, parts]
  change Number.nearestBits (digits * 1) (10 ^ places) = _
  rw [Nat.mul_one]

/-- The range in which decimals are read exactly holds every double. -/
theorem pow_le_range (bounded : n ≤ 1074) : 2 ^ n ≤ 10 ^ 340 :=
  (Nat.pow_le_pow_right (by decide) bounded).trans (by decide +kernel)

/-- A double that is a whole number has the digits of that number. -/
theorem nearestBits_whole (present : significand ≠ 0) (size : significand < 2 ^ 53)
    (natural : 0 ≤ exponent) (bounded : exponent ≤ 971) (canonical : Canonical significand exponent) :
    (⟨significand * 2 ^ exponent.toNat, -(0 : Nat)⟩ : Decimal).nearestBits =
      min ((exponent + 1074).toNat * 2 ^ 52 + significand) infinityBits := by
  have nonzero : significand * 2 ^ exponent.toNat ≠ 0 :=
    Nat.mul_ne_zero present (Nat.two_pow_pos _).ne'
  have range : significand * 2 ^ exponent.toNat < 10 ^ (0 + 340) :=
    calc significand * 2 ^ exponent.toNat < 2 ^ 53 * 2 ^ exponent.toNat :=
          Nat.mul_lt_mul_of_pos_right size (Nat.two_pow_pos _)
      _ = 2 ^ (53 + exponent.toNat) := (Nat.pow_add ..).symm
      _ ≤ 10 ^ (0 + 340) := pow_le_range (by omega)
  have large : 10 ^ 0 ≤ significand * 2 ^ exponent.toNat * 10 ^ 340 :=
    Nat.mul_pos (Nat.pos_of_ne_zero nonzero) (Nat.pow_pos (by decide))
  have exact : significand * 2 ^ exponent.toNat * 2 ^ (-exponent).toNat =
      significand * (10 ^ 0 * 2 ^ exponent.toNat) := by
    rw [show (-exponent).toNat = 0 by omega]
    ring
  rw [Decimal.nearestBits_moderate nonzero large range]
  exact nearestBits_exact present (Nat.pow_pos (by decide)) exact canonical

/-- A double that is a fraction has as many decimal places as its unit has binary ones. -/
theorem nearestBits_fraction (present : significand ≠ 0) (size : significand < 2 ^ 53)
    (negative : exponent < 0) (smallest : -1074 ≤ exponent)
    (canonical : Canonical significand exponent) :
    (⟨significand * 5 ^ (-exponent).toNat, -((-exponent).toNat : Nat)⟩ : Decimal).nearestBits =
      min ((exponent + 1074).toNat * 2 ^ 52 + significand) infinityBits := by
  generalize placed : (-exponent).toNat = places
  have tens : (5 : Nat) ^ places * 2 ^ places = 10 ^ places := (Nat.mul_pow 5 2 places).symm
  have nonzero : significand * 5 ^ places ≠ 0 := Nat.mul_ne_zero present (Nat.pow_pos (by decide)).ne'
  have large : 10 ^ places ≤ significand * 5 ^ places * 10 ^ 340 :=
    calc 10 ^ places = 5 ^ places * 2 ^ places := tens.symm
      _ ≤ 5 ^ places * 10 ^ 340 := Nat.mul_le_mul_left _ (pow_le_range (by omega))
      _ ≤ significand * 5 ^ places * 10 ^ 340 :=
        Nat.mul_le_mul_right _ (Nat.le_mul_of_pos_left _ (Nat.pos_of_ne_zero present))
  have range : significand * 5 ^ places < 10 ^ (places + 340) :=
    calc significand * 5 ^ places < 2 ^ 53 * 5 ^ places :=
          Nat.mul_lt_mul_of_pos_right size (Nat.pow_pos (by decide))
      _ ≤ 10 ^ 340 * 10 ^ places :=
        Nat.mul_le_mul (pow_le_range (by decide)) (Nat.pow_le_pow_left (by decide) _)
      _ = 10 ^ (places + 340) := by rw [Nat.mul_comm, Nat.pow_add]
  have exact : significand * 5 ^ places * 2 ^ (-exponent).toNat =
      significand * (10 ^ places * 2 ^ exponent.toNat) := by
    rw [show exponent.toNat = 0 by omega, placed, ← tens]
    ring
  rw [Decimal.nearestBits_moderate nonzero large range]
  exact nearestBits_exact present (Nat.pow_pos (by decide)) exact canonical

/-- Every double without a sign is the one nearest to some decimal. -/
theorem exists_decimal (bounded : bits ≤ infinityBits) :
    ∃ digits places : Nat, (⟨digits, -places⟩ : Decimal).nearestBits = bits := by
  by_cases none : bits = 0
  · exact ⟨0, 0, none.symm⟩
  · by_cases infinite : bits = infinityBits
    · refine ⟨10 ^ 400, 0, ?_⟩
      have long : 340 < digitCount (10 ^ 400) := by
        apply Nat.lt_of_not_le
        rw [digitCount_le_iff (by decide)]
        exact Nat.not_lt.mpr (Nat.pow_le_pow_right (by decide) (by decide))
      have point : (⟨10 ^ 400, -(0 : Nat)⟩ : Decimal).point = (digitCount (10 ^ 400) : Int) - 0 := rfl
      rw [infinite, Decimal.nearestBits, if_neg, if_pos]
      · rw [point]
        omega
      · rintro (zero | tiny)
        · exact absurd zero (Nat.pow_pos (by decide)).ne'
        · rw [point] at tiny
          omega
    · have finite : bits < infinityBits := by omega
      obtain ⟨significand, exponent, present, canonical, above, same⟩ := exists_canonical finite none
      have size : significand < 2 ^ 53 := by
        rcases canonical with ⟨small, -⟩ | ⟨-, small, -⟩ <;> omega
      have smallest : -1074 ≤ exponent := by
        rcases canonical with ⟨-, least⟩ | ⟨-, -, least⟩ <;> omega
      have found : bits = min ((exponent + 1074).toNat * 2 ^ 52 + significand) infinityBits := by
        rw [← same, Nat.min_eq_left bounded]
      by_cases natural : 0 ≤ exponent
      · exact ⟨_, _, (nearestBits_whole present size natural above canonical).trans found.symm⟩
      · refine ⟨_, _, (nearestBits_fraction present size ?_ smallest canonical).trans found.symm⟩
        omega

/-- Every double without a sign is read from some numeric literal. -/
theorem exists_numeral_unsigned {x : Float} (unsigned : isUnsigned x) :
    ∃ whole fraction, whole ≠ [] ∧ (∀ c ∈ whole ++ fraction, Text.isDigit c) ∧
      read? (String.ofList (Lexeme.numeral whole fraction)) = some x := by
  obtain ⟨digits, places, nearest⟩ := exists_decimal ((isUnsigned_iff x).mp unsigned)
  obtain ⟨whole, fraction, present, each, value, length⟩ := exists_literal digits places
  refine ⟨whole, fraction, present, each, ?_⟩
  rw [read?_numeral present each, value, length]
  congr 1
  apply eq_of_toBits
  rw [Decimal.toBits_toFloat, nearest]

end Scriptlet.Number
