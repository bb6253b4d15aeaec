import Scriptlet.Number.Read
import Scriptlet.Proofs.Number.Bits
import Scriptlet.Proofs.Token.Spelling

/-! The text of a numeric literal always reads as a number, and what it reads as carries no sign. -/
namespace Scriptlet.Number

open Lexeme

theorem isDigit_iff (c : Char) : Text.isDigit c = true ↔ 48 ≤ c.toNat ∧ c.toNat ≤ 57 := by
  simp only [Text.isDigit, Bool.and_eq_true, decide_eq_true_eq]
  exact Iff.rfl

/-- The characters of a numeric literal. -/
def isPlain (c : Char) : Bool :=
  Text.isDigit c || c == '.'

theorem numeral_plain (digits : ∀ c ∈ whole ++ fraction, Text.isDigit c) :
    ∀ c ∈ numeral whole fraction, isPlain c := by
  intro c member
  unfold isPlain
  unfold numeral at member
  rcases List.mem_append.mp member with inWhole | inRest
  · simp [digits c (by simp [inWhole])]
  · split at inRest
    · cases inRest
    · rcases List.mem_cons.mp inRest with rfl | inFraction
      · simp
      · simp [digits c (by simp [inFraction])]

theorem isPlain_size (plain : isPlain c) : 46 ≤ c.toNat ∧ c.toNat ≤ 57 := by
  simp only [isPlain, Bool.or_eq_true, beq_iff_eq, isDigit_iff] at plain
  rcases plain with digit | rfl
  · omega
  · decide

/-- A character that the reading of numbers neither changes nor leaves out. -/
structure Kept (c : Char) : Prop where
  ascii : toAscii c = c
  solid : surrounds c = false
  notJoint : c ≠ '_'

theorem Kept.of_small (small : c.toNat < 127) (solid : surrounds c = false) (notJoint : c ≠ '_') :
    Kept c :=
  ⟨by rw [toAscii, if_pos small], solid, notJoint⟩

theorem Kept.of_plain (plain : isPlain c) : Kept c := by
  have size := isPlain_size plain
  have outside : Text.isWhite c = false := by
    apply Bool.eq_false_iff.mpr
    intro white
    obtain ⟨range, listed, above, below⟩ := Text.inRanges_sound white
    have apart : ∀ range ∈ Text.whiteRanges, range.2 < 46 ∨ 57 < range.1 := by decide
    have := apart range listed
    omega
  refine .of_small (by omega) (by rw [surrounds, outside, Bool.false_and]) ?_
  rintro rfl
  exact absurd plain (by decide)

theorem dropWhile_kept {text : List Char} (kept : ∀ c ∈ text, Kept c) :
    text.dropWhile surrounds = text := by
  cases text with
  | nil => rfl
  | cons c rest => rw [List.dropWhile_cons, (kept c (by simp)).solid]; rfl

theorem stripSpace_kept {text : List Char} (kept : ∀ c ∈ text, Kept c) : stripSpace text = text := by
  rw [stripSpace, dropWhile_kept kept, dropWhile_kept (by simpa using kept), List.reverse_reverse]

theorem joinDigits?_kept {text : List Char} {before : Char} (kept : ∀ c ∈ text, Kept c)
    (apart : before ≠ '_') : joinDigits? before text = some text := by
  induction text generalizing before with
  | nil => simp [joinDigits?, apart]
  | cons c rest ih =>
    have different := (kept c (by simp)).notJoint
    simp [joinDigits?, different, apart, ih (fun c member => kept c (by simp [member])) different]

theorem dropWhile_run {keep : Char → Bool} {run tail : List Char} (each : ∀ c ∈ run, keep c)
    (ends : ∀ c ∈ tail.head?, keep c = false) : (run ++ tail).dropWhile keep = tail := by
  rw [List.dropWhile_append_of_pos each]
  cases tail with
  | nil => rfl
  | cons c tail => simp [ends c (by simp)]

/-- What follows the digits of a numeral is an exponent, or there is nothing. -/
theorem readDecimal?_numeral {tail : List Char} (present : whole ≠ [])
    (digits : ∀ c ∈ whole ++ fraction, Text.isDigit c) (ends : ∀ c ∈ tail.head?, isPlain c = false) :
    readDecimal? (numeral whole fraction ++ tail) = (readExponent? tail).map fun exponent =>
      ⟨digitsValue (whole ++ fraction), exponent - fraction.length⟩ := by
  have wholeDigits : ∀ c ∈ whole, Text.isDigit c := fun c member => digits c (by simp [member])
  have notDigit : ∀ c ∈ tail.head?, Text.isDigit c = false := by
    intro c first
    have outside := ends c first
    rw [isPlain, Bool.or_eq_false_iff] at outside
    exact outside.1
  by_cases none : fraction = []
  · subst none
    have notPoint : ∀ rest, tail ≠ '.' :: rest := by
      rintro rest rfl
      exact absurd (ends '.' rfl) (by decide)
    simp [readDecimal?, numeral, takeWhile_run wholeDigits notDigit, dropWhile_run wholeDigits notDigit,
      present]
  · have fractionDigits : ∀ c ∈ fraction, Text.isDigit c := fun c member => digits c (by simp [member])
    have point : ∀ c ∈ ('.' :: (fraction ++ tail)).head?, Text.isDigit c = false := by simp [Text.isDigit]
    simp [readDecimal?, numeral, none, takeWhile_run wholeDigits point, dropWhile_run wholeDigits point,
      takeWhile_run fractionDigits notDigit, dropWhile_run fractionDigits notDigit]

/-- A text that starts with a digit is not the name of a number. -/
theorem lower_ne_name (digit : Text.isDigit first) (named : name.head? = some letter)
    (letters : letter = 'i' ∨ letter = 'n') : (lower (first :: rest) == name) = false := by
  have same : first.toLower = first := by
    have size := (isDigit_iff first).mp digit
    have small : ¬ (first.val ≥ 'A'.val ∧ first.val ≤ 'Z'.val) := by
      rintro ⟨above, -⟩
      have : 65 ≤ first.toNat := above
      omega
    exact dif_neg small
  rw [beq_eq_false_iff_ne]
  rintro rfl
  simp only [lower, List.map_cons, List.head?_cons, Option.some.injEq, same] at named
  subst named
  rcases letters with rfl | rfl <;> exact absurd digit (by decide)

/-- A minus sign, if the number has one. -/
def signText (negative : Bool) : List Char :=
  if negative then ['-'] else []

theorem splitSign_signText {first : Char} (negative : Bool) (digit : Text.isDigit first) (rest : List Char) :
    splitSign (signText negative ++ first :: rest) = (negative, first :: rest) := by
  cases negative with
  | true => rfl
  | false =>
    change splitSign (first :: rest) = _
    unfold splitSign
    split
    · rename_i minus
      cases minus
      exact absurd digit (by decide)
    · rename_i plus
      cases plus
      exact absurd digit (by decide)
    · rfl

theorem signText_kept (negative : Bool) : ∀ c ∈ signText negative, Kept c := by
  cases negative with
  | false => simp [signText]
  | true =>
    intro c member
    rw [List.mem_singleton.mp member]
    exact .of_small (by decide) (by decide +kernel) (by decide)

/-- A text that goes on with a digit after its sign reads as a decimal. -/
theorem read?_signed {first : Char} {rest : List Char} (negative : Bool) (digit : Text.isDigit first)
    (each : ∀ c ∈ first :: rest, Kept c) :
    read? (String.ofList (signText negative ++ first :: rest)) =
      (readDecimal? (first :: rest)).map (Decimal.toFloat negative) := by
  have kept : ∀ c ∈ signText negative ++ first :: rest, Kept c := by
    intro c member
    exact (List.mem_append.mp member).elim (signText_kept negative c) (each c)
  have ascii : (signText negative ++ first :: rest).map toAscii = signText negative ++ first :: rest := by
    rw [List.map_congr_left fun c member => (kept c member).ascii, List.map_id']
  have notInf : (lower (first :: rest) == "inf".toList) = false := lower_ne_name digit rfl (.inl rfl)
  have notInfinity : (lower (first :: rest) == "infinity".toList) = false :=
    lower_ne_name digit rfl (.inl rfl)
  have notNan : (lower (first :: rest) == "nan".toList) = false := lower_ne_name digit rfl (.inr rfl)
  rw [read?, String.toList_ofList, ascii, stripSpace_kept kept, joinDigits?_kept kept (by decide),
    Option.bind_some, splitSign_signText negative digit]
  simp only [notInf, notInfinity, notNan, Bool.or_self, Bool.false_eq_true, ↓reduceIte]

/-- A text that starts with a digit reads as a decimal without sign. -/
theorem read?_unsigned {first : Char} {rest : List Char} (digit : Text.isDigit first)
    (kept : ∀ c ∈ first :: rest, Kept c) :
    read? (String.ofList (first :: rest)) =
      (readDecimal? (first :: rest)).map (Decimal.toFloat false) :=
  read?_signed false digit kept

/-- What the text of a numeric literal reads as. -/
theorem read?_numeral (present : whole ≠ []) (digits : ∀ c ∈ whole ++ fraction, Text.isDigit c) :
    read? (String.ofList (numeral whole fraction)) =
      some (Decimal.toFloat false ⟨digitsValue (whole ++ fraction), -(fraction.length : Int)⟩) := by
  have kept : ∀ c ∈ numeral whole fraction, Kept c :=
    fun c member => .of_plain (numeral_plain digits c member)
  have decimal := readDecimal?_numeral present digits
    (by simp : ∀ c ∈ ([] : List Char).head?, isPlain c = false)
  obtain ⟨first, rest, rfl⟩ := List.exists_cons_of_ne_nil present
  have digit : Text.isDigit first := digits first (by simp)
  rw [List.append_nil] at decimal
  rw [show numeral (first :: rest) fraction = first :: numeral rest fraction from rfl] at kept decimal ⊢
  rw [read?_unsigned digit kept, decimal]
  simp [readExponent?]

theorem nearestBits_le (numerator denominator : Nat) :
    nearestBits numerator denominator ≤ infinityBits := by
  unfold nearestBits
  split
  · exact Nat.zero_le _
  · exact Nat.min_le_right _ _

theorem Decimal.nearestBits_le (decimal : Decimal) : decimal.nearestBits ≤ infinityBits := by
  unfold Decimal.nearestBits
  split
  · exact Nat.zero_le _
  · split
    · exact Nat.le_refl _
    · exact Number.nearestBits_le _ _

/-- The double of a decimal without sign has the bits that were found for it. -/
theorem Decimal.toBits_toFloat (decimal : Decimal) :
    (decimal.toFloat false).toBits.toNat = decimal.nearestBits := by
  rw [Decimal.toFloat, toBits_ofSignedBits false decimal.nearestBits_le, if_neg Bool.false_ne_true]

/-- A numeric literal reads as a number, which carries no sign. -/
theorem read?_spelled {lexeme : String} (spelled : Spelled .number lexeme.toList) :
    ∃ x, read? lexeme = some x ∧ isUnsigned x := by
  obtain ⟨whole, fraction, present, digits, text⟩ := spelled.of_number
  have found := read?_numeral present digits
  rw [← text, String.ofList_toList] at found
  refine ⟨_, found, (isUnsigned_iff _).mpr ?_⟩
  rw [Decimal.toBits_toFloat]
  exact Decimal.nearestBits_le _

end Scriptlet.Number
