import Mathlib.Data.List.TakeWhile
import Scriptlet.Number.Style
import Scriptlet.Proofs.Number.Exact

/-! The texts of numbers. A finite number without sign that is written without an exponent is written
as a numeric literal. -/
namespace Scriptlet.Number

open Lexeme

variable {style : Style} {decimal : Decimal} {digits : List Char} {x : Float}

def Binary.isFinite : Binary → Bool
  | .finite .. => true
  | _ => false

theorem exists_finite (finite : (binary x).isFinite) :
    ∃ negative significand exponent, binary x = .finite negative significand exponent := by
  cases shape : binary x with
  | finite negative significand exponent => exact ⟨negative, significand, exponent, rfl⟩
  | _ =>
    rw [shape] at finite
    cases finite

theorem isUnsigned_finite (shape : binary x = .finite negative significand exponent) :
    isUnsigned x = !negative := by
  rw [isUnsigned, shape]

theorem Decimal.significant_digits (decimal : Decimal) : ∀ c ∈ decimal.significant, Text.isDigit c := by
  intro c member
  refine toDigits_digits decimal.digits c ?_
  rw [significant, List.mem_reverse] at member
  exact List.mem_reverse.mp ((List.dropWhile_sublist _).subset member)

/-- Only zeros at the end are left out. -/
theorem Decimal.toDigits_significant (decimal : Decimal) :
    ∃ zeros, Nat.toDigits 10 decimal.digits = decimal.significant ++ List.replicate zeros '0' := by
  let zeros := ((Nat.toDigits 10 decimal.digits).reverse.takeWhile (· == '0')).reverse
  have each : ∀ c ∈ zeros, c = '0' :=
    fun c member => by simpa using List.mem_takeWhile_imp (List.mem_reverse.mp member)
  refine ⟨zeros.length, ?_⟩
  rw [← List.eq_replicate_of_mem each, significant, ← List.reverse_append,
    List.takeWhile_append_dropWhile, List.reverse_reverse]

/-- Not all digits of a number are zeros. -/
theorem Decimal.significant_ne_nil (some : decimal.digits ≠ 0) : decimal.significant ≠ [] := by
  intro none
  obtain ⟨zeros, whole⟩ := decimal.toDigits_significant
  have value := congrArg digitsValue whole
  rw [none, List.nil_append, digitsValue_toDigits, ← List.append_nil (List.replicate _ _),
    digitsValue_padded] at value
  exact some value

/-- The digits of a number other than zero do not start with a zero. -/
theorem head?_toDigits (some : n ≠ 0) : (Nat.toDigits 10 n).head? ≠ .some '0' := by
  induction n using Nat.strongRecOn with
  | ind n ih =>
    by_cases small : n < 10
    · rw [Nat.toDigits_of_lt_base small]
      simpa using some
    · have large : 10 ≤ n := by omega
      rw [Nat.toDigits_of_base_le (by decide) large, List.head?_append_of_ne_nil _ Nat.toDigits_ne_nil]
      exact ih (n / 10) (by omega) (by omega)

theorem Decimal.head?_significant (some : decimal.digits ≠ 0) : decimal.significant.head? ≠ .some '0' := by
  obtain ⟨zeros, whole⟩ := decimal.toDigits_significant
  have first := head?_toDigits some
  rwa [whole, List.head?_append_of_ne_nil _ (significant_ne_nil some)] at first

theorem digits_zeros (count : Nat) : ∀ c ∈ List.replicate count '0', Text.isDigit c := by
  intro c member
  rw [List.eq_of_mem_replicate member]
  decide

theorem digits_padded (each : ∀ c ∈ digits, Text.isDigit c) (count : Nat) :
    ∀ c ∈ digits ++ List.replicate count '0', Text.isDigit c := fun c member =>
  (List.mem_append.mp member).elim (each c) (digits_zeros count c)

theorem digitsValue_zeros (digits : List Char) (zeros : Nat) :
    digitsValue (digits ++ List.replicate zeros '0') = digitsValue digits * 10 ^ zeros := by
  change Nat.ofDigitChars 10 _ 0 = Nat.ofDigitChars 10 _ 0 * _
  rw [Nat.ofDigitChars_append, Nat.ofDigitChars_replicate_zero, Nat.mul_comm]

/-- What a decimal number with its point after so many digits is worth. -/
def pointedValue (digits : List Char) (point : Int) : ℚ :=
  digitsValue digits * 10 ^ (point - digits.length)

/-- Positional notation as a numeral, with at least one digit on each side of its point. The digits before
the point are a single zero, or they start with the first digit. -/
theorem positionalText_numeral (each : ∀ c ∈ digits, Text.isDigit c) (some : digits ≠ []) (point : Int) :
    ∃ whole fraction, whole ≠ [] ∧ fraction ≠ [] ∧ (∀ c ∈ whole ++ fraction, Text.isDigit c) ∧
      (whole = ['0'] ∨ whole.head? = digits.head?) ∧
      positionalText digits point = numeral whole fraction ∧
      pointedValue (whole ++ fraction) whole.length = pointedValue digits point := by
  unfold positionalText
  split
  · refine ⟨['0'], List.replicate (-point).toNat '0' ++ digits, by simp, by simp [some], ?_, .inl rfl, ?_, ?_⟩
    · intro c member
      rcases List.mem_append.mp member with zero | member
      · exact digits_zeros 1 c zero
      · exact (List.mem_append.mp member).elim (digits_zeros _ c) (each c)
    · simp [numeral, some]
    · have value := digitsValue_padded ((-point).toNat + 1) digits
      rw [List.replicate_succ, List.cons_append] at value
      simp only [pointedValue, List.singleton_append, value]
      congr 2
      simp
      omega
  · dsimp only
    split
    · refine ⟨digits.take point.toNat, digits.drop point.toNat, ?_, ?_, ?_, .inr ?_, ?_, ?_⟩
      · apply List.ne_nil_of_length_pos
        rw [List.length_take]
        omega
      · apply List.ne_nil_of_length_pos
        rw [List.length_drop]
        omega
      · rwa [List.take_append_drop]
      · rw [List.head?_take, if_neg (by omega)]
      · rw [numeral, if_neg]
        apply List.ne_nil_of_length_pos
        rw [List.length_drop]
        omega
      · rw [List.take_append_drop]
        unfold pointedValue
        congr 2
        rw [List.length_take]
        omega
    · refine ⟨digits ++ List.replicate (point.toNat - digits.length) '0', ['0'], ?_, by simp, ?_, .inr ?_,
        ?_, ?_⟩
      · exact List.append_ne_nil_of_left_ne_nil some _
      · intro c member
        exact (List.mem_append.mp member).elim (digits_padded each _ c) (digits_zeros 1 c)
      · rw [List.head?_append_of_ne_nil _ some]
      · simp [numeral]
      · have padded : digits ++ List.replicate (point.toNat - digits.length) '0' ++ ['0'] =
            digits ++ List.replicate (point.toNat - digits.length + 1) '0' := by
          rw [List.replicate_succ', List.append_assoc]
        simp only [pointedValue, padded, digitsValue_zeros, List.length_append, List.length_replicate]
        push_cast
        rw [mul_assoc, ← zpow_natCast, ← zpow_add₀ (by norm_num)]
        congr 2
        omega

theorem positionalText_spelled (each : ∀ c ∈ digits, Text.isDigit c) (some : digits ≠ []) (point : Int) :
    Spelled .number (positionalText digits point) := by
  obtain ⟨whole, fraction, before, -, numeral, -, text, -⟩ := positionalText_numeral each some point
  rw [text]
  exact .number before numeral

theorem Style.decimal_spelled (plain : 'e' ∉ style.decimal decimal) :
    Spelled .number (style.decimal decimal) := by
  unfold Style.decimal at plain ⊢
  by_cases none : decimal.digits = 0
  · rw [if_pos none]
    exact positionalText_spelled (digits_zeros 1) (List.cons_ne_nil _ _) 1
  · rw [if_neg none] at plain ⊢
    dsimp only at plain ⊢
    by_cases positional : style.positional (decimal.point - 1)
    · rw [if_pos positional]
      exact positionalText_spelled decimal.significant_digits (Decimal.significant_ne_nil none) _
    · rw [if_neg positional] at plain
      exact absurd (by simp [scientificText]) plain

theorem Style.text_spelled (unsigned : isUnsigned x) (finite : (binary x).isFinite)
    (plain : 'e' ∉ (style.text x).toList) : Spelled .number (style.text x).toList := by
  rw [Style.text, String.toList_ofList] at plain ⊢
  obtain ⟨negative, significand, exponent, shape⟩ := exists_finite finite
  rw [isUnsigned_finite shape] at unsigned
  obtain rfl : negative = false := by simpa using unsigned
  rw [shape] at plain ⊢
  exact Style.decimal_spelled plain

end Scriptlet.Number
