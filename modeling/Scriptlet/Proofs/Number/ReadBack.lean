import Scriptlet.Proofs.Number.Nearest
import Scriptlet.Proofs.Number.Text

/-! The text of a double reads back as the double. -/
namespace Scriptlet.Number

open Lexeme

variable {style : Style} {decimal : Decimal} {digits : List Char} {x : Float}
variable {significand : Nat} {exponent : Int} {negative : Bool}

/-- The zeros that are left out do not count. -/
theorem Decimal.significant_value (decimal : Decimal) :
    pointedValue decimal.significant decimal.point = decimal.value := by
  obtain ⟨zeros, whole⟩ := decimal.toDigits_significant
  have value := congrArg digitsValue whole
  have length := congrArg List.length whole
  rw [digitsValue_toDigits, digitsValue_zeros] at value
  rw [List.length_append, List.length_replicate] at length
  unfold pointedValue point Decimal.value digitCount
  rw [length]
  rw [value]
  push_cast
  rw [mul_assoc, ← zpow_natCast, ← zpow_add₀ (by norm_num)]
  congr 2
  omega

theorem readExponent?_signed (exponent : Int) (zeros : Nat) :
    readExponent? ('e' :: (if exponent < 0 then '-' else '+') ::
      (List.replicate zeros '0' ++ Nat.toDigits 10 exponent.natAbs)) = some exponent := by
  have each : ∀ c ∈ List.replicate zeros '0' ++ Nat.toDigits 10 exponent.natAbs, Text.isDigit c := by
    intro c member
    exact (List.mem_append.mp member).elim (digits_zeros zeros c) (toDigits_digits _ c)
  have value : digitsValue (List.replicate zeros '0' ++ Nat.toDigits 10 exponent.natAbs) =
      exponent.natAbs := by
    rw [digitsValue_padded, digitsValue_toDigits]
  have some : List.replicate zeros '0' ++ Nat.toDigits 10 exponent.natAbs ≠ [] :=
    List.append_ne_nil_of_right_ne_nil _ (List.ne_nil_of_length_pos Nat.length_toDigits_pos)
  generalize List.replicate zeros '0' ++ Nat.toDigits 10 exponent.natAbs = size at each value some
  have empty : size.isEmpty = false := by simpa using some
  have all : size.all Text.isDigit = true := by simpa using each
  by_cases negative : exponent < 0
  · have size : (digitsValue size : Int) = -exponent := by omega
    simp [readExponent?, if_pos negative, splitSign, size, empty, all]
  · have size : (digitsValue size : Int) = exponent := by omega
    simp [readExponent?, if_neg negative, splitSign, size, empty, all]

/-- The characters of a number with or without an exponent. -/
def isNumberChar (c : Char) : Bool :=
  isPlain c || ['e', '+', '-'].contains c

theorem Kept.of_numberChar {c : Char} (numeric : isNumberChar c) : Kept c := by
  have each : ∀ c ∈ ['e', '+', '-'], c.toNat < 127 ∧ surrounds c = false ∧ c ≠ '_' := by
    simp only [List.forall_mem_cons, List.not_mem_nil, false_implies, implies_true, and_true]
    decide +kernel
  rw [isNumberChar, Bool.or_eq_true, List.contains_iff_mem] at numeric
  rcases numeric with plain | listed
  · exact .of_plain plain
  · obtain ⟨small, solid, notJoint⟩ := each c listed
    exact .of_small small solid notJoint

theorem numberChar_digit {c : Char} (digit : Text.isDigit c) : isNumberChar c := by
  rw [isNumberChar, isPlain, digit]
  rfl

/-- A numeral and what comes after it, where a point or an exponent shows that it is no integer. -/
structure Marked (whole fraction tail : List Char) : Prop where
  present : whole ≠ []
  digits : ∀ c ∈ whole ++ fraction, Text.isDigit c
  numeric : ∀ c ∈ tail, isNumberChar c
  ends : ∀ c ∈ tail.head?, isPlain c = false
  mark : fraction ≠ [] ∨ tail ≠ []

theorem Marked.reads (marked : Marked whole fraction tail) (read : readExponent? tail = some exponent) :
    ∃ first rest other, Lexeme.numeral whole fraction ++ tail = first :: rest ∧ Text.isDigit first ∧
      (∀ c ∈ first :: rest, isNumberChar c) ∧ (∃ c ∈ rest, Text.isDigit c = false) ∧
      readDecimal? (first :: rest) = some other ∧
      other.value = pointedValue (whole ++ fraction) (whole.length + exponent) := by
  have found := readDecimal?_numeral marked.present marked.digits marked.ends
  rw [read] at found
  obtain ⟨first, rest, rfl⟩ := List.exists_cons_of_ne_nil marked.present
  refine ⟨first, _, _, rfl, marked.digits first (by simp), ?_, ?_, found, ?_⟩
  · intro c member
    rcases List.mem_append.mp (show c ∈ Lexeme.numeral (first :: rest) fraction ++ tail from member) with
      inside | after
    · rw [isNumberChar, numeral_plain marked.digits c inside, Bool.true_or]
    · exact marked.numeric c after
  · rcases marked.mark with point | more
    · exact ⟨'.', by simp [point], by decide⟩
    · obtain ⟨c, tail, rfl⟩ := List.exists_cons_of_ne_nil more
      have outside := marked.ends c rfl
      rw [isPlain, Bool.or_eq_false_iff] at outside
      exact ⟨c, by simp, outside.1⟩
  · rw [pointedValue, Decimal.value]
    congr 2
    simp
    omega

theorem Style.decimal_marked (style : Style) (decimal : Decimal) :
    ∃ whole fraction tail exponent, style.decimal decimal = Lexeme.numeral whole fraction ++ tail ∧
      Marked whole fraction tail ∧ readExponent? tail = some exponent ∧
      pointedValue (whole ++ fraction) (whole.length + exponent) = decimal.value := by
  unfold Style.decimal
  split
  · rename_i none
    refine ⟨['0'], ['0'], [], 0, rfl, ?_, rfl, ?_⟩
    · exact ⟨by simp, List.all_eq_true.mp (by decide), by simp, by simp, by simp⟩
    · rw [pointedValue, Decimal.value, none]
      simp [digitsValue]
  · rename_i present
    have some := Decimal.significant_ne_nil present
    have each := decimal.significant_digits
    dsimp only
    rw [← decimal.significant_value]
    split
    · obtain ⟨whole, fraction, wholeSome, fractionSome, digits, -, text, value⟩ :=
        positionalText_numeral each some decimal.point
      refine ⟨whole, fraction, [], 0, ?_, ⟨wholeSome, digits, by simp, by simp, .inl fractionSome⟩, rfl, ?_⟩
      · rw [text, List.append_nil]
      · rw [← value, add_zero]
    · generalize decimal.significant = digits at some each ⊢
      obtain ⟨first, rest, rfl⟩ := List.exists_cons_of_ne_nil some
      have exponent := readExponent?_signed (decimal.point - 1)
        (2 - (Nat.toDigits 10 (decimal.point - 1).natAbs).length)
      refine ⟨[first], rest, _, decimal.point - 1, ?_, ⟨by simp, each, ?_, ?_, by simp⟩, exponent, ?_⟩
      · simp [scientificText, Lexeme.numeral]
      · intro c member
        rcases List.mem_cons.mp member with rfl | member
        · decide
        · rcases List.mem_cons.mp member with rfl | member
          · split <;> decide
          · exact numberChar_digit ((List.mem_append.mp member).elim (digits_zeros _ c)
              (toDigits_digits _ c))
      · simp [isPlain, Text.isDigit]
      · rw [List.singleton_append, List.length_singleton]
        congr 1
        omega

/-- Every way of writing a decimal is a numeral, perhaps with an exponent, and reads as the same number. A
point or an exponent shows that it is no integer. -/
theorem Style.decimal_reads (style : Style) (decimal : Decimal) :
    ∃ first rest other, style.decimal decimal = first :: rest ∧ Text.isDigit first ∧
      (∀ c ∈ first :: rest, isNumberChar c) ∧ (∃ c ∈ rest, Text.isDigit c = false) ∧
      readDecimal? (first :: rest) = some other ∧ other.value = decimal.value := by
  obtain ⟨whole, fraction, tail, exponent, text, marked, read, value⟩ := style.decimal_marked decimal
  rw [text, ← value]
  exact marked.reads read

/-- The fields of a finite double. -/
theorem binary_finite (shape : binary x = .finite negative significand exponent) :
    let bits := (exponent + 1074).toNat * 2 ^ 52 + significand
    Canonical significand exponent ∧ exponent ≤ 971 ∧
      x.toBits.toNat = if negative then bits + 2 ^ 63 else bits := by
  have size : x.toBits.toNat < 2 ^ 64 := x.toBits.toNat_lt
  rw [binary, Binary.ofBits_eq] at shape
  generalize x.toBits.toNat = bits at size shape ⊢
  dsimp only
  split at shape
  · split at shape <;> cases shape
  · split at shape
    · injection shape with sign same least
      subst sign same least
      refine ⟨.inl ⟨by omega, rfl⟩, by omega, ?_⟩
      split <;> rename_i top <;> simp only [beq_iff_eq] at top <;> omega
    · injection shape with sign same biased
      subst sign same biased
      refine ⟨.inr ⟨by omega, by omega, by omega⟩, by omega, ?_⟩
      split <;> rename_i top <;> simp only [beq_iff_eq] at top <;> omega

theorem binary_infinite (shape : binary x = .infinite false) : x.toBits.toNat = infinityBits := by
  have limit : infinityBits = 2047 * 2 ^ 52 := rfl
  have size : x.toBits.toNat < 2 ^ 64 := x.toBits.toNat_lt
  rw [binary, Binary.ofBits_eq] at shape
  generalize x.toBits.toNat = bits at size shape ⊢
  split at shape
  · split at shape
    · injection shape with sign
      have positive : bits / 2 ^ 63 % 2 ≠ 1 := by simpa using sign
      omega
    · cases shape
  · split at shape <;> cases shape

/-- A decimal that is worth what the shortest one of a double is worth is nearest to the double. -/
theorem nearestBits_shortest (shape : binary x = .finite negative significand exponent)
    (same : decimal.value = (shortest significand exponent).value) :
    decimal.nearestBits = (exponent + 1074).toNat * 2 ^ 52 + significand := by
  obtain ⟨canonical, bounded, -⟩ := binary_finite shape
  by_cases none : significand = 0
  · have digits : decimal.digits = 0 := by
      subst none
      have power : (10 : ℚ) ^ decimal.exponent ≠ 0 := zpow_ne_zero _ (by norm_num)
      simpa [shortest, Decimal.value, power] using same
    have least : exponent = -1074 := by
      rcases canonical with ⟨-, least⟩ | ⟨large, -⟩ <;> omega
    rw [Decimal.nearestBits, if_pos (.inl digits), none, least]
    rfl
  · refine nearestBits_contains none canonical bounded ?_
    rw [same]
    exact shortest_contains none

theorem toFloat_shortest (shape : binary x = .finite negative significand exponent)
    (same : decimal.value = (shortest significand exponent).value) : decimal.toFloat negative = x := by
  obtain ⟨-, -, bits⟩ := binary_finite shape
  apply eq_of_toBits
  rw [Decimal.toFloat, toBits_ofSignedBits negative decimal.nearestBits_le,
    nearestBits_shortest shape same, bits]

/-- The text of a finite number: its sign, and a text that starts with a digit and reads as the number
without its sign. -/
theorem Style.text_reads (style : Style) (shape : binary x = .finite negative significand exponent) :
    ∃ first rest other, (style.text x).toList = signText negative ++ first :: rest ∧ Text.isDigit first ∧
      (∀ c ∈ first :: rest, isNumberChar c) ∧ readDecimal? (first :: rest) = some other ∧
      other.value = (shortest significand exponent).value := by
  obtain ⟨first, rest, other, text, digit, numeric, -, read, value⟩ :=
    style.decimal_reads (shortest significand exponent)
  refine ⟨first, rest, other, ?_, digit, numeric, read, value⟩
  rw [Style.text, String.toList_ofList, shape, ← text]
  rfl

/-- The text of a finite number reads back as the number. -/
theorem Style.read?_finite (style : Style) (shape : binary x = .finite negative significand exponent) :
    read? (style.text x) = some x := by
  obtain ⟨first, rest, other, text, digit, numeric, read, value⟩ := style.text_reads shape
  have found := read?_signed negative digit fun c member => .of_numberChar (numeric c member)
  rw [← String.ofList_toList (s := style.text x), text, found, read, Option.map_some,
    toFloat_shortest shape value]

/-- The text of a number without sign reads back as the number, where the infinity has a name that reads as
infinity. -/
theorem Style.read?_text (named : read? style.infinite = some (ofSignedBits false infinityBits))
    (unsigned : isUnsigned x) : read? (style.text x) = some x := by
  cases shape : binary x with
  | nan =>
    rw [isUnsigned, shape] at unsigned
    cases unsigned
  | infinite negative =>
    rw [isUnsigned, shape] at unsigned
    obtain rfl : negative = false := by simpa using unsigned
    have same : ofSignedBits false infinityBits = x := by
      apply eq_of_toBits
      rw [toBits_ofSignedBits false (Nat.le_refl _), if_neg Bool.false_ne_true, binary_infinite shape]
    simpa [Style.text, shape, Style.chars, same] using named
  | finite negative significand exponent => exact style.read?_finite shape

end Scriptlet.Number
