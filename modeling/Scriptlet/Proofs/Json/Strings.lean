import Mathlib.Algebra.Group.Nat.Defs
import Mathlib.Tactic.SplitIfs
import Scriptlet.Json

/-! The strings of JSON texts: how they are read, and that every string is read as it was before it was
written. -/
namespace Scriptlet.Json

def hexDigit? (c : Char) : Option Nat :=
  "0123456789abcdef".toList.findIdx? (· == c.toLower)

def hexValue? (digits : List Char) : Option Nat :=
  digits.foldlM (fun value c => (hexDigit? c).map (16 * value + ·)) 0

/-- What a character after a backslash stands for; a unit in hexadecimal is read elsewhere. -/
def escaped? : Char → Option Char
  | 'b' => some '\x08'
  | 'f' => some '\x0c'
  | 'n' => some '\n'
  | 'r' => some '\r'
  | 't' => some '\t'
  | c => if c == '"' || c == '\\' || c == '/' then some c else none

/-- The units of a string up to the quote that ends it, and what comes after the quote. -/
def readUnits : List Char → Option (List Nat × List Char)
  | [] | ['\\'] => none
  | '"' :: rest => some ([], rest)
  | '\\' :: 'u' :: a :: b :: c :: d :: rest =>
    (hexValue? [a, b, c, d]).bind fun unit =>
      (readUnits rest).map fun (units, after) => (unit :: units, after)
  | '\\' :: c :: rest =>
    (escaped? c).bind fun plain =>
      (readUnits rest).map fun (units, after) => (plain.toNat :: units, after)
  | c :: rest =>
    if c.toNat < 0x20 then none
    else (readUnits rest).map fun (units, after) => (c.toNat :: units, after)

def isHigh (unit : Nat) : Bool :=
  0xD800 ≤ unit && unit < 0xDC00

def isLow (unit : Nat) : Bool :=
  0xDC00 ≤ unit && unit < 0xE000

def charOf? (unit : Nat) : Option Char :=
  if unit.isValidChar then some (Char.ofNat unit) else none

/-- The characters that units stand for. Two surrogates are one character, and one alone is none. -/
def joinUnits : List Nat → Option (List Char)
  | [] => some []
  | [unit] => (charOf? unit).map fun c => [c]
  | high :: low :: rest =>
    if isHigh high && isLow low then
      (joinUnits rest).map (Char.ofNat (0x10000 + (high - 0xD800) * 0x400 + (low - 0xDC00)) :: ·)
    else (charOf? high).bind fun c => (joinUnits (low :: rest)).map (c :: ·)

/-- The string after an opening quote, and what comes after its closing quote. -/
def readString (text : List Char) : Option (String × List Char) :=
  (readUnits text).bind fun (units, after) =>
    (joinUnits units).map fun chars => (String.ofList chars, after)

/-- The units of a character. -/
def units (c : Char) : List Nat :=
  if c.toNat < 0x10000 then [c.toNat]
  else [0xD800 + (c.toNat - 0x10000) / 0x400, 0xDC00 + (c.toNat - 0x10000) % 0x400]

theorem hexValue?_toDigits (n : Nat) : hexValue? (Nat.toDigits 16 n) = some n := by
  have digit : ∀ n < 16, hexDigit? (Nat.digitChar n) = some n := by decide
  induction n using Nat.strongRecOn with
  | ind n ih =>
    rw [Nat.toDigits_eq_if (by decide)]
    split
    · rename_i small
      simp [hexValue?, digit n small]
    · rename_i large
      have above := ih (n / 16) (by omega)
      unfold hexValue? at above ⊢
      rw [List.foldlM_append, above]
      simp [digit (n % 16) (Nat.mod_lt n (by decide))]
      omega

theorem hexValue?_hex {width n : Nat} (wide : 0 < width) (fits : n < 16 ^ width) :
    (Text.hex width n).length = width ∧ hexValue? (Text.hex width n) = some n := by
  have short : (Nat.toDigits 16 n).length ≤ width := (Nat.length_toDigits_le_iff (by decide) wide).mpr fits
  have zeros : ∀ count, (List.replicate count '0').foldlM
      (fun value c => (hexDigit? c).map (16 * value + ·)) 0 = some 0 := by
    intro count
    induction count with
    | zero => rfl
    | succ count ih => exact ih
  unfold Text.hex
  constructor
  · simp
    omega
  · unfold hexValue?
    rw [List.foldlM_append, zeros]
    exact hexValue?_toDigits n

/-- Four hexadecimal digits are read as the unit that they were written for. -/
theorem readUnits_unitEscape {unit : Nat} (fits : unit < 0x10000) (text : List Char) :
    readUnits (unitEscape unit ++ text) =
      (readUnits text).map fun (units, after) => (unit :: units, after) := by
  obtain ⟨length, value⟩ := hexValue?_hex (by decide : 0 < 4) (fits : unit < 16 ^ 4)
  unfold unitEscape
  match digits : Text.hex 4 unit, length with
  | [a, b, c, d], _ =>
    rw [digits] at value
    simp [readUnits, value]

theorem valid_code (c : Char) : c.toNat < 0xD800 ∨ 0xDFFF < c.toNat ∧ c.toNat < 0x110000 :=
  c.valid

theorem readUnits_plain {c : Char} (notQuote : c ≠ '"') (notSlash : c ≠ '\\') (visible : 0x20 ≤ c.toNat)
    (text : List Char) :
    readUnits (c :: text) = (readUnits text).map fun (others, after) => (c.toNat :: others, after) := by
  have shown : ¬ c.toNat < 0x20 := Nat.not_lt.mpr visible
  rw [readUnits.eq_def]
  split
  case h_6 same =>
    obtain ⟨rfl, rfl⟩ := List.cons.inj same
    exact if_neg shown
  all_goals simp_all

/-- A character is read as its units, however it is written. -/
theorem readUnits_escape (c : Char) (text : List Char) :
    readUnits (escape c ++ text) =
      (readUnits text).map fun (others, after) => (units c ++ others, after) := by
  have coded : ∀ n, c.toNat = n → c = Char.ofNat n := by
    intro n code
    rw [← code, Char.ofNat_toNat]
  have valid := valid_code c
  unfold escape
  split_ifs with quote slash feed return_ tab back form visible basic
  · cases beq_iff_eq.mp quote
    rfl
  · cases beq_iff_eq.mp slash
    rfl
  · cases beq_iff_eq.mp feed
    rfl
  · cases beq_iff_eq.mp return_
    rfl
  · cases beq_iff_eq.mp tab
    rfl
  · cases coded 8 (beq_iff_eq.mp back)
    rfl
  · cases coded 12 (beq_iff_eq.mp form)
    rfl
  · simp only [Bool.and_eq_true, decide_eq_true_eq] at visible
    have plain : units c = [c.toNat] := if_pos (by omega)
    rw [plain]
    exact readUnits_plain (by simpa using quote) (by simpa using slash) visible.1 text
  · have plain : units c = [c.toNat] := if_pos basic
    rw [plain]
    exact readUnits_unitEscape basic text
  · have pair : units c =
        [0xD800 + (c.toNat - 0x10000) / 0x400, 0xDC00 + (c.toNat - 0x10000) % 0x400] := if_neg basic
    dsimp only
    rw [List.append_assoc, readUnits_unitEscape (by omega), readUnits_unitEscape (by omega), pair,
      Option.map_map]
    rfl

/-- The units of a character stand for the character. -/
theorem joinUnits_units (c : Char) (rest : List Nat) :
    joinUnits (units c ++ rest) = (joinUnits rest).map (c :: ·) := by
  have valid := valid_code c
  unfold units
  split
  · have apart : isHigh c.toNat = false := by
      simp [isHigh]
      omega
    have itself : charOf? c.toNat = some c := by
      rw [charOf?, if_pos (show c.toNat.isValidChar from c.valid), Char.ofNat_toNat]
    cases rest with
    | nil => simp [joinUnits, itself]
    | cons low rest => simp [joinUnits, apart, itself]
  · rename_i beyond
    have high : isHigh (0xD800 + (c.toNat - 0x10000) / 0x400) = true := by
      simp [isHigh]
      omega
    have low : isLow (0xDC00 + (c.toNat - 0x10000) % 0x400) = true := by
      simp [isLow]
      omega
    have code : 0x10000 + (0xD800 + (c.toNat - 0x10000) / 0x400 - 0xD800) * 0x400 +
        (0xDC00 + (c.toNat - 0x10000) % 0x400 - 0xDC00) = c.toNat := by
      omega
    simp only [List.cons_append, List.nil_append, joinUnits, high, low, Bool.and_self, ↓reduceIte, code,
      Char.ofNat_toNat]

/-- A string is read as it was before it was written. -/
theorem readString_write (value : String) (rest : List Char) :
    readString (value.toList.flatMap escape ++ '"' :: rest) = some (value, rest) := by
  have read : ∀ chars : List Char, readUnits (chars.flatMap escape ++ '"' :: rest) =
      some (chars.flatMap units, rest) := by
    intro chars
    induction chars with
    | nil => rfl
    | cons c chars ih => rw [List.flatMap_cons, List.append_assoc, readUnits_escape, ih]; rfl
  have joined : ∀ chars : List Char, joinUnits (chars.flatMap units) = some chars := by
    intro chars
    induction chars with
    | nil => rfl
    | cons c chars ih => rw [List.flatMap_cons, joinUnits_units, ih]; rfl
  rw [readString, read, Option.bind_some]
  dsimp only
  rw [joined, Option.map_some, String.ofList_toList]

end Scriptlet.Json
