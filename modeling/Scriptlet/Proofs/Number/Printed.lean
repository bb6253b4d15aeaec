import Scriptlet.Proofs.Grammar.Acceptance
import Scriptlet.Proofs.Grammar.Writing
import Scriptlet.Proofs.Number.ReadBack
import Scriptlet.Proofs.Token.Spaced

/-! What a program prints for a number: the digits of the literal form without its exponent, a text that is
worth the same and reads back as the number. -/
namespace Scriptlet.Number

open Lexeme

variable {decimal : Decimal} {digits : List Char} {x : Float} {negative : Bool}
variable {significand : Nat} {exponent : Int}

/-- The sign of a text, and the number that the text after it stands for. -/
def denoted? (text : String) : Option (Bool × ℚ) :=
  let (negative, unsigned) := splitSign text.toList
  (readDecimal? unsigned).map fun decimal => (negative, decimal.value)

/-- However a double is written, it is worth the shortest decimal that reads back. -/
theorem Style.denoted_text (style : Style) (shape : binary x = .finite negative significand exponent) :
    denoted? (style.text x) = some (negative, (shortest significand exponent).value) := by
  obtain ⟨first, rest, other, text, digit, -, read, value⟩ := style.text_reads shape
  rw [denoted?, text, splitSign_signText negative digit]
  dsimp only
  rw [read, Option.map_some, value]

section Expanding

/-- Digits that do not start with a zero are those of their value. -/
theorem toDigits_digitsValue (each : ∀ c ∈ digits, Text.isDigit c) (some : digits ≠ [])
    (leading : digits.head? ≠ .some '0') : Nat.toDigits 10 (digitsValue digits) = digits := by
  induction digits using List.reverseRecOn with
  | nil => exact absurd rfl some
  | append_singleton front c ih =>
    have size := (isDigit_iff c).mp (each c (by simp))
    have small : c.toNat - 48 < 10 := by omega
    have last : Nat.toDigits 10 (c.toNat - 48) = [c] := by
      rw [Nat.toDigits_of_lt_base small]
      congr 1
      apply Char.toNat_inj.mp
      rw [Nat.toNat_digitChar_of_lt_ten small]
      omega
    have value : digitsValue (front ++ [c]) = 10 * digitsValue front + (c.toNat - 48) := by
      simp [digitsValue]
    rw [value]
    by_cases none : front = []
    · subst none
      rwa [List.nil_append, digitsValue, List.foldl_nil, Nat.mul_zero, Nat.zero_add]
    · rw [List.head?_append_of_ne_nil _ none] at leading
      have whole := ih (fun c member => each c (by simp [member])) none leading
      have positive : 0 < digitsValue front := by
        apply Nat.pos_of_ne_zero
        intro zero
        rw [zero] at whole
        rw [← whole] at leading
        exact leading rfl
      rw [← Nat.toDigits_append_toDigits (by decide) positive small, whole, last]

/-- A decimal written without an exponent: zeros are put after its digits for a positive exponent, and a
negative one says how many digits stand after the point. -/
def Decimal.fixed (decimal : Decimal) : List Char :=
  let digits := Nat.toDigits 10 (decimal.digits * 10 ^ decimal.exponent.toNat)
  let places := (-decimal.exponent).toNat
  let padded := List.replicate (places + 1 - digits.length) '0' ++ digits
  numeral (padded.take (padded.length - places)) (padded.drop (padded.length - places))

/-- At least one digit stands after the point. -/
def pointed (text : List Char) : List Char :=
  if '.' ∈ text then text else text ++ ['.', '0']

/-- The text of a number with its exponent, if there is one, spelled out. -/
def respelled (text : List Char) : List Char :=
  if 'e' ∈ text then
    let (negative, unsigned) := splitSign text
    match readDecimal? unsigned with
    | none => text
    | some decimal => pointed (signText negative ++ decimal.fixed)
  else text

theorem Decimal.fixed_eq {whole fraction : List Char} (length : fraction.length = (-decimal.exponent).toNat)
    (same : Nat.toDigits 10 (decimal.digits * 10 ^ decimal.exponent.toNat) = digits)
    (split : List.replicate (fraction.length + 1 - digits.length) '0' ++ digits = whole ++ fraction) :
    decimal.fixed = numeral whole fraction := by
  rw [fixed, same, ← length, split, List.length_append, Nat.add_sub_cancel, List.take_left, List.drop_left]

theorem pointed_numeral (negative : Bool) (whole : List Char) {fraction : List Char} (some : fraction ≠ []) :
    pointed (signText negative ++ numeral whole fraction) = signText negative ++ numeral whole fraction :=
  if_pos (by simp [numeral, some])

theorem pointed_whole {whole : List Char} (negative : Bool) (each : ∀ c ∈ whole, Text.isDigit c) :
    pointed (signText negative ++ whole) = signText negative ++ (whole ++ ['.', '0']) := by
  rw [pointed, if_neg, List.append_assoc]
  intro member
  rcases List.mem_append.mp member with sign | digit
  · cases negative <;> simp [signText] at sign
  · exact absurd (each '.' digit) (by decide)

section Point

variable (each : ∀ c ∈ digits, Text.isDigit c) (some : digits ≠ []) (leading : digits.head? ≠ .some '0')
variable {point : Int}
include each some leading

theorem toDigits_unscaled (below : exponent ≤ 0) :
    Nat.toDigits 10 (digitsValue digits * 10 ^ exponent.toNat) = digits := by
  rw [Int.toNat_of_nonpos below, Nat.pow_zero, Nat.mul_one, toDigits_digitsValue each some leading]

theorem fixed_pointBefore (before : point ≤ 0) :
    (⟨digitsValue digits, point - digits.length⟩ : Decimal).fixed =
      numeral ['0'] (List.replicate (-point).toNat '0' ++ digits) := by
  have length : (List.replicate (-point).toNat '0' ++ digits).length =
      (-(point - digits.length)).toNat := by
    rw [List.length_append, List.length_replicate]
    omega
  have below : point - digits.length ≤ 0 := by omega
  refine Decimal.fixed_eq length (toDigits_unscaled each some leading below) ?_
  have zeros : (-(point - digits.length)).toNat + 1 - digits.length = (-point).toNat + 1 := by omega
  rw [length, zeros, List.replicate_succ]
  rfl

theorem fixed_pointInside (inside : point.toNat < digits.length) (later : 0 < point) :
    (⟨digitsValue digits, point - digits.length⟩ : Decimal).fixed =
      numeral (digits.take point.toNat) (digits.drop point.toNat) := by
  have length : (digits.drop point.toNat).length = (-(point - digits.length)).toNat := by
    rw [List.length_drop]
    omega
  have below : point - digits.length ≤ 0 := by omega
  refine Decimal.fixed_eq length (toDigits_unscaled each some leading below) ?_
  rw [length, show (-(point - digits.length)).toNat + 1 - digits.length = 0 by omega,
    List.take_append_drop]
  rfl

theorem fixed_pointAfter (after : digits.length ≤ point.toNat) :
    (⟨digitsValue digits, point - digits.length⟩ : Decimal).fixed =
      digits ++ List.replicate (point.toNat - digits.length) '0' := by
  have present := List.length_pos_iff.mpr some
  let whole := digits ++ List.replicate (point.toNat - digits.length) '0'
  have same : Nat.toDigits 10 (digitsValue digits * 10 ^ (point - digits.length).toNat) = whole := by
    rw [show (point - digits.length).toNat = point.toNat - digits.length by omega, ← digitsValue_zeros]
    refine toDigits_digitsValue (digits_padded each _) (by simp [some]) ?_
    rwa [List.head?_append_of_ne_nil _ some]
  have written : (⟨digitsValue digits, point - digits.length⟩ : Decimal).fixed = numeral whole [] := by
    refine Decimal.fixed_eq (by simp; omega) same ?_
    have long : 1 ≤ whole.length := by
      rw [List.length_append]
      omega
    rw [List.length_nil, Nat.zero_add, Nat.sub_eq_zero_of_le long, List.append_nil]
    rfl
  rw [written, numeral, if_pos rfl, List.append_nil]

/-- To write a decimal out and to see to its point gives the positional form of its digits. -/
theorem pointed_fixed (point : Int) (negative : Bool) :
    pointed (signText negative ++ (⟨digitsValue digits, point - digits.length⟩ : Decimal).fixed) =
      signText negative ++ positionalText digits point := by
  unfold positionalText
  split
  · rename_i before
    rw [fixed_pointBefore each some leading before, pointed_numeral negative _ (by simp [some])]
    simp [numeral, some]
  · rename_i later
    dsimp only
    split
    · rename_i inside
      have nonempty : digits.drop point.toNat ≠ [] := fun none =>
        absurd (List.drop_eq_nil_iff.mp none) (Nat.not_le_of_lt inside)
      rw [fixed_pointInside each some leading inside (Int.not_le.mp later),
        pointed_numeral negative _ nonempty, numeral, if_neg nonempty]
    · rename_i outside
      rw [fixed_pointAfter each some leading (Nat.le_of_not_lt outside),
        pointed_whole negative (digits_padded each _)]

end Point

theorem respelled_plain {text : List Char} (negative : Bool) (plain : ∀ c ∈ text, isPlain c) :
    respelled (signText negative ++ text) = signText negative ++ text := by
  apply if_neg
  intro member
  rcases List.mem_append.mp member with sign | letter
  · cases negative <;> simp [signText] at sign
  · exact absurd (plain 'e' letter) (by decide)

theorem respelled_scientific (each : ∀ c ∈ digits, Text.isDigit c) (some : digits ≠ [])
    (leading : digits.head? ≠ .some '0') (point : Int) (negative : Bool) :
    respelled (signText negative ++ scientificText digits (point - 1)) =
      signText negative ++ positionalText digits point := by
  obtain ⟨first, rest, rfl⟩ := List.exists_cons_of_ne_nil some
  let tail := 'e' :: (if point - 1 < 0 then '-' else '+') :: (List.replicate
    (2 - (Nat.toDigits 10 (point - 1).natAbs).length) '0' ++ Nat.toDigits 10 (point - 1).natAbs)
  have shape : scientificText (first :: rest) (point - 1) = numeral [first] rest ++ tail := by
    simp [scientificText, numeral, tail]
  have ends : ∀ c ∈ tail.head?, isPlain c = false := by simp [tail, isPlain, Text.isDigit]
  have read := readDecimal?_numeral (List.cons_ne_nil first []) each ends
  have places : point - 1 - rest.length = point - (first :: rest).length := by
    rw [List.length_cons]
    omega
  rw [readExponent?_signed, Option.map_some, places] at read
  have sign : splitSign (signText negative ++ (numeral [first] rest ++ tail)) =
      (negative, numeral [first] rest ++ tail) := splitSign_signText negative (each first (by simp)) _
  have marked : 'e' ∈ signText negative ++ (numeral [first] rest ++ tail) := by simp [tail]
  rw [shape, respelled, if_pos marked, sign]
  dsimp only
  rw [read]
  exact pointed_fixed each some leading point negative

theorem respelled_decimal (style : Style) (negative : Bool) (decimal : Decimal) :
    respelled (signText negative ++ style.decimal decimal) =
      signText negative ++ Style.printed.decimal decimal := by
  unfold Style.decimal
  split
  · exact respelled_plain negative (List.all_eq_true.mp (by decide))
  · rename_i present
    have some := Decimal.significant_ne_nil present
    have each := decimal.significant_digits
    rw [if_pos (show Style.printed.positional (decimal.point - 1) = true from rfl)]
    dsimp only
    split
    · obtain ⟨whole, fraction, -, -, digit, -, text, -⟩ := positionalText_numeral each some decimal.point
      rw [text]
      exact respelled_plain negative (numeral_plain digit)
    · exact respelled_scientific each some (Decimal.head?_significant present) decimal.point negative

/-- The printed text of a number is its literal form with the exponent, if there is one, spelled out. -/
theorem respelled_literal (shape : binary x = .finite negative significand exponent) :
    (Style.printed.text x).toList = respelled (Style.literal.text x).toList := by
  simp only [Style.text, String.toList_ofList, shape]
  exact (respelled_decimal Style.literal negative (shortest significand exponent)).symm

end Expanding

section Reading

/-- A printed number: its sign, digits before the point with no zero that could be left out, the point and
digits after it. -/
theorem printed_numeral (shape : binary x = .finite negative significand exponent) :
    ∃ whole fraction, (Style.printed.text x).toList = signText negative ++ numeral whole fraction ∧
      whole ≠ [] ∧ fraction ≠ [] ∧ (∀ c ∈ whole ++ fraction, Text.isDigit c) ∧
      (whole = ['0'] ∨ whole.head? ≠ some '0') := by
  have text : (Style.printed.text x).toList =
      signText negative ++ Style.printed.decimal (shortest significand exponent) := by
    rw [Style.text, String.toList_ofList, shape]
    rfl
  rw [text]
  generalize shortest significand exponent = decimal
  by_cases none : decimal.digits = 0
  · rw [Style.decimal, if_pos none]
    exact ⟨['0'], ['0'], rfl, by simp, by simp, List.all_eq_true.mp (by decide), .inl rfl⟩
  · have leading := Decimal.head?_significant none
    obtain ⟨whole, fraction, wholeSome, fractionSome, digit, first, text, -⟩ :=
      positionalText_numeral decimal.significant_digits (Decimal.significant_ne_nil none) decimal.point
    refine ⟨whole, fraction, ?_, wholeSome, fractionSome, digit, first.imp_right fun same => ?_⟩
    · rw [← text, Style.decimal, if_neg none]
      rfl
    · rwa [same]

/-- A printed number without sign is one numeric token. -/
theorem tokenize_printed (shape : binary x = .finite false significand exponent) :
    tokenize (Style.printed.text x) =
      .ok [⟨.number, Style.printed.text x, 1⟩, ⟨.endOfInput, "", 1⟩] := by
  obtain ⟨whole, fraction, text, present, -, digit, -⟩ := printed_numeral shape
  have spelled : Spelled .number (Style.printed.text x).toList := by
    rw [text]
    exact .number present digit
  have lexed := tokenize_shown (Scan.Shows.of_spelled spelled)
  rwa [String.ofList_toList] at lexed

end Reading

/-- What is printed for a finite number is its literal form with the exponent, if there is one, spelled out: a
minus sign or none, digits before the point with no zero that could be left out, and digits after it. Both
texts stand for the same number with the same sign, both read back as the double, and no other finite double
is printed like it. Without a sign the text is one numeric token, and the expression that it is read as is
the number. -/
theorem printed_number_reads_back {x : Float} (finite : (binary x).isFinite) :
    let printed := (Scalar.number x).display
    let literal := (Scalar.number x).form
    printed.toList = respelled literal.toList ∧
    (∃ whole fraction, printed.toList = signText (!isUnsigned x) ++ whole ++ '.' :: fraction ∧
      whole ≠ [] ∧ fraction ≠ [] ∧ (∀ c ∈ whole ++ fraction, Text.isDigit c) ∧
      (whole = ['0'] ∨ whole.head? ≠ some '0')) ∧
    (∃ value, denoted? printed = some (!isUnsigned x, value) ∧
      denoted? literal = some (!isUnsigned x, value)) ∧
    read? printed = some x ∧ read? literal = some x ∧
    (∀ y, (binary y).isFinite → (Scalar.number y).display = printed → y = x) ∧
    (isUnsigned x → tokenize printed = .ok [⟨.number, printed, 1⟩, ⟨.endOfInput, "", 1⟩] ∧
      ∀ limits : Limits, 20 ≤ limits.depth →
        Script.parseExpression limits printed = .ok (.literal 1 (.number x))) := by
  intro printed literal
  obtain ⟨negative, significand, exponent, shape⟩ := exists_finite finite
  have sign : (!isUnsigned x) = negative := by rw [isUnsigned_finite shape, Bool.not_not]
  have back : read? printed = some x := Style.printed.read?_finite shape
  refine ⟨respelled_literal shape, ?_, ?_, back, Style.literal.read?_finite shape, ?_, ?_⟩
  · obtain ⟨whole, fraction, text, wholeSome, fractionSome, digit, leading⟩ := printed_numeral shape
    refine ⟨whole, fraction, ?_, wholeSome, fractionSome, digit, leading⟩
    rw [numeral, if_neg fractionSome, ← List.append_assoc] at text
    rwa [sign]
  · rw [sign]
    exact ⟨_, Style.printed.denoted_text shape, Style.literal.denoted_text shape⟩
  · intro y real same
    obtain ⟨_, _, _, otherShape⟩ := exists_finite real
    have otherBack : read? (Scalar.number y).display = some y := Style.printed.read?_finite otherShape
    rw [same, back] at otherBack
    exact (Option.some.inj otherBack).symm
  · intro unsigned
    obtain rfl : negative = false := by rw [← sign, unsigned]; rfl
    have lexed : tokenize printed = .ok ([⟨.number, printed, 1⟩] ++ [⟨.endOfInput, "", 1⟩]) :=
      tokenize_printed shape
    refine ⟨lexed, fun limits enough => ?_⟩
    have derivation : Grammar.Derives .primary false [⟨.number, printed, 1⟩] (.literal 1 (.number x)) :=
      .number rfl back
    exact Grammar.parseExpression_of_derives lexed (derivation.standing 8 (by decide)) enough

/-- Ten to the sixteenth, of which only the printed text has no exponent. -/
theorem printed_number_reads_back_exponent :
    let x := ofSignedBits false (1075 * 2 ^ 52 + 5000000000000000)
    (binary x).isFinite ∧ (Scalar.number x).form = "1e+16" ∧
      (Scalar.number x).display = "10000000000000000.0" ∧
      tokenize (Scalar.number x).display =
        .ok [⟨.number, "10000000000000000.0", 1⟩, ⟨.endOfInput, "", 1⟩] ∧
      Script.parseExpression .standard (Scalar.number x).display = .ok (.literal 1 (.number x)) := by
  intro x
  have shape : binary x = .finite false 5000000000000000 1 := by
    rw [binary_ofSignedBits false (by decide)]
    decide
  have finite : (binary x).isFinite := by rw [shape]; rfl
  have unsigned : isUnsigned x := by rw [isUnsigned_finite shape]; rfl
  have form : (Scalar.number x).form = "1e+16" := by
    rw [Scalar.form, Style.text, shape]
    decide +kernel
  have display : (Scalar.number x).display = "10000000000000000.0" := by
    rw [Scalar.display, Style.text, shape]
    decide +kernel
  obtain ⟨-, -, -, -, -, -, reads⟩ := printed_number_reads_back finite
  obtain ⟨lexed, parsed⟩ := reads unsigned
  refine ⟨finite, form, display, ?_, parsed .standard (by decide)⟩
  rw [← display]
  exact lexed

end Scriptlet.Number
