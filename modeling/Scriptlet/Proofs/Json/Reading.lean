import Scriptlet.Proofs.Json.Strings
import Scriptlet.Proofs.Number.ReadBack

/-! JSON texts: how they are read, and that every value is read as it was before it was written. -/
namespace Scriptlet.Json

open Number

def isSpace (c : Char) : Bool :=
  c == ' ' || c == '\n' || c == '\t' || c == '\r'

/-- The characters that end a word which is no string. -/
def isDelimiter (c : Char) : Bool :=
  isSpace c || [',', ':', '[', ']', '\x7b', '\x7d', '"'].contains c

def skipSpace (text : List Char) : List Char :=
  text.dropWhile isSpace

/-- An integer: digits, perhaps after a minus sign. -/
def readInteger? (word : List Char) : Option Int :=
  match word with
  | '-' :: digits =>
    if digits ≠ [] ∧ digits.all Text.isDigit then some (-digitsValue digits) else none
  | digits => if digits ≠ [] ∧ digits.all Text.isDigit then some (digitsValue digits) else none

/-- The value of a word that is no string: a name, an integer or a double. -/
def readWord? (word : List Char) : Option Json :=
  if word = "null".toList then some .null
  else if word = "true".toList then some (.bool true)
  else if word = "false".toList then some (.bool false)
  else match readInteger? word with
    | some value => some (.integer value)
    | none => (Number.read? (String.ofList word)).map .number

mutual

/-- The value at the front of a text, and what comes after it. `fuel` bounds the nesting. -/
def readValue (fuel : Nat) (text : List Char) : Option (Json × List Char) :=
  match fuel with
  | 0 => none
  | fuel + 1 =>
    match skipSpace text with
    | '"' :: rest => (readString rest).map fun (value, after) => (.string value, after)
    | '[' :: rest =>
      match skipSpace rest with
      | ']' :: after => some (.array [], after)
      | _ => (readItems fuel rest).map fun (items, after) => (.array items, after)
    | '\x7b' :: rest =>
      match skipSpace rest with
      | '\x7d' :: after => some (.object [], after)
      | _ => (readFields fuel rest).map fun (fields, after) => (.object fields, after)
    | word =>
      (readWord? (word.takeWhile fun c => !isDelimiter c)).map
        fun value => (value, word.dropWhile fun c => !isDelimiter c)

/-- The items of an array up to the bracket that closes it. -/
def readItems (fuel : Nat) (text : List Char) : Option (List Json × List Char) :=
  match fuel with
  | 0 => none
  | fuel + 1 =>
    (readValue fuel text).bind fun (item, after) =>
      match skipSpace after with
      | ',' :: rest => (readItems fuel rest).map fun (items, after) => (item :: items, after)
      | ']' :: rest => some ([item], rest)
      | _ => none

/-- The fields of an object up to the bracket that closes it. -/
def readFields (fuel : Nat) (text : List Char) : Option (List (String × Json) × List Char) :=
  match fuel with
  | 0 => none
  | fuel + 1 =>
    match skipSpace text with
    | '"' :: rest =>
      (readString rest).bind fun (name, after) =>
        match skipSpace after with
        | ':' :: rest =>
          (readValue fuel rest).bind fun (value, after) =>
            match skipSpace after with
            | ',' :: rest => (readFields fuel rest).map fun (fields, after) => ((name, value) :: fields, after)
            | '\x7d' :: rest => some ([(name, value)], rest)
            | _ => none
        | _ => none
    | _ => none

end

/-- The value that a text stands for. Between one value and the next one inside it the text has at least
one character. -/
def read? (text : String) : Option Json :=
  (readValue (2 * text.length + 1) text.toList).bind fun (json, after) =>
    if skipSpace after = [] then some json else none

/-- Values in which every double is without sign: these are all that the texts of numbers read back as. -/
inductive Readable : Json → Prop where
  | null : Readable .null
  | bool : Readable (.bool value)
  | number (unsigned : isUnsigned x) : Readable (.number x)
  | integer : Readable (.integer n)
  | string : Readable (.string value)
  | array (each : ∀ item ∈ items, Readable item) : Readable (.array items)
  | object (each : ∀ field ∈ fields, Readable field.2) : Readable (.object fields)

attribute [simp] Readable.null Readable.bool Readable.integer Readable.string

@[simp] theorem readable_array {items : List Json} :
    (Json.array items).Readable ↔ ∀ item ∈ items, item.Readable :=
  ⟨fun | .array each => each, .array⟩

@[simp] theorem readable_object {fields : List (String × Json)} :
    (Json.object fields).Readable ↔ ∀ field ∈ fields, field.2.Readable :=
  ⟨fun | .object each => each, .object⟩

variable {word rest : List Char} {json : Json} {fuel level : Nat} {x : Float}

theorem mem_of_isDelimiter {c : Char} (delimits : isDelimiter c) :
    c ∈ [' ', '\n', '\t', '\r', ',', ':', '[', ']', '\x7b', '\x7d', '"'] := by
  simpa [isDelimiter, isSpace, or_assoc] using delimits

theorem skipSpace_newline (level : Nat) (rest : List Char) :
    skipSpace (newline level rest) = skipSpace rest := by
  have spaces : ∀ c ∈ '\n' :: List.replicate (2 * level) ' ', isSpace c := by
    intro c member
    rcases List.mem_cons.mp member with rfl | member
    · rfl
    · rw [List.eq_of_mem_replicate member]
      rfl
  rw [skipSpace, newline, ← List.cons_append, List.dropWhile_append_of_pos spaces]
  rfl

theorem readValue_skip {text : List Char} (fuel : Nat) (same : skipSpace text = skipSpace rest) :
    readValue fuel text = readValue fuel rest := by
  cases fuel with
  | zero => rfl
  | succ fuel => rw [readValue, readValue, same]

/-- A word is read up to the delimiter after it. -/
theorem readValue_word (some : word ≠ []) (each : ∀ c ∈ word, isDelimiter c = false)
    (ends : ∀ c ∈ rest.head?, isDelimiter c) (read : readWord? word = .some json) :
    readValue (fuel + 1) (word ++ rest) = .some (json, rest) := by
  obtain ⟨first, word, rfl⟩ := List.exists_cons_of_ne_nil some
  have outside := each first (by simp)
  have solid : isSpace first = false := by
    rw [isDelimiter, Bool.or_eq_false_iff] at outside
    exact outside.1
  have skip : skipSpace (first :: word ++ rest) = first :: word ++ rest := by
    rw [skipSpace, List.cons_append, List.dropWhile_cons, solid]
    rfl
  have keep : ∀ c ∈ first :: word, (!isDelimiter c) = true := fun c member => by simp [each c member]
  have stop : ∀ c ∈ rest.head?, (!isDelimiter c) = false := fun c head => by simp [ends c head]
  rw [readValue, skip]
  split
  · rename_i same
    cases (List.cons.inj same).1
    exact absurd outside (by decide)
  · rename_i same
    cases (List.cons.inj same).1
    exact absurd outside (by decide)
  · rename_i same
    cases (List.cons.inj same).1
    exact absurd outside (by decide)
  · rw [Lexeme.takeWhile_run keep stop, Number.dropWhile_run keep stop, read]
    rfl

/-- A value that is read as it was before it was written. -/
structure Restored (json : Json) : Prop where
  longer : ∀ level rest, rest.length < (json.write level rest).length
  starts : ∀ level rest, ∃ first others, json.write level rest = first :: others ∧
    isSpace first = false ∧ first ≠ ']'
  reads : ∀ fuel level rest, (∀ c ∈ rest.head?, isDelimiter c) →
    2 * (json.write level rest).length < fuel →
      readValue fuel (json.write level rest) = some (json, rest)

theorem Restored.of_word (some : word ≠ []) (each : ∀ c ∈ word, isDelimiter c = false)
    (read : readWord? word = .some json) (written : ∀ level rest, json.write level rest = word ++ rest) :
    Restored json := by
  refine ⟨fun level rest => ?_, fun level rest => ?_, fun fuel level rest ends room => ?_⟩
  · rw [written, List.length_append]
    have := List.length_pos_of_ne_nil some
    omega
  · obtain ⟨first, word, rfl⟩ := List.exists_cons_of_ne_nil some
    have outside := each first (by simp)
    refine ⟨first, word ++ rest, written level rest, ?_, ?_⟩
    · rw [isDelimiter, Bool.or_eq_false_iff] at outside
      exact outside.1
    · rintro rfl
      exact absurd outside (by decide)
  · obtain ⟨fuel, rfl⟩ := Nat.exists_eq_add_one_of_ne_zero (by omega : fuel ≠ 0)
    rw [written]
    exact readValue_word some each ends read

theorem Restored.of_name {name : List Char} (some : name ≠ []) (each : name.all fun c => !isDelimiter c)
    (read : readWord? name = .some json) (written : ∀ level rest, json.write level rest = name ++ rest) :
    Restored json :=
  .of_word some (by simpa using each) read written

theorem readInteger?_digits (n : Nat) : readInteger? (Nat.toDigits 10 n) = some (n : Int) := by
  have each := toDigits_digits n
  have value := digitsValue_toDigits n
  have some : Nat.toDigits 10 n ≠ [] := Nat.toDigits_ne_nil
  generalize Nat.toDigits 10 n = digits at each value some
  have all : digits.all Text.isDigit = true := by simpa using each
  unfold readInteger?
  split
  · exact absurd (each '-' (by simp)) (by decide)
  · rw [if_pos ⟨some, all⟩, value]

theorem integer_word (n : Int) : ∃ word, (toString n).toList = word ∧ word ≠ [] ∧
    (∀ c ∈ word, isNumberChar c) ∧ readInteger? word = some n := by
  cases n with
  | ofNat n =>
    refine ⟨Nat.toDigits 10 n, ?_, Nat.toDigits_ne_nil, fun c member => ?_, readInteger?_digits n⟩
    · change (n.repr).toList = _
      rw [Nat.toList_repr]
    · exact numberChar_digit (toDigits_digits n c member)
  | negSucc n =>
    refine ⟨'-' :: Nat.toDigits 10 (n + 1), ?_, List.cons_ne_nil _ _, ?_, ?_⟩
    · change ("-" ++ (n + 1).repr).toList = _
      simp [Nat.toList_repr]
    · intro c member
      rcases List.mem_cons.mp member with rfl | member
      · decide
      · exact numberChar_digit (toDigits_digits _ c member)
    · have all : (Nat.toDigits 10 (n + 1)).all Text.isDigit = true := by simpa using toDigits_digits (n + 1)
      rw [readInteger?, if_pos ⟨Nat.toDigits_ne_nil, all⟩, digitsValue_toDigits]
      rfl

theorem numberChar_not_delimiter {c : Char} (numeric : isNumberChar c) : isDelimiter c = false := by
  apply Bool.eq_false_iff.mpr
  intro delimits
  have apart : ∀ c ∈ [' ', '\n', '\t', '\r', ',', ':', '[', ']', '\x7b', '\x7d', '"'],
      isNumberChar c = false := by
    simp only [List.forall_mem_cons, List.not_mem_nil, false_implies, implies_true, and_true]
    decide
  rw [apart c (mem_of_isDelimiter delimits)] at numeric
  cases numeric

theorem readWord?_of_not_name (notNull : word ≠ "null".toList) (notTrue : word ≠ "true".toList)
    (notFalse : word ≠ "false".toList) : readWord? word = match readInteger? word with
      | some value => some (.integer value)
      | none => (Number.read? (String.ofList word)).map .number := by
  rw [readWord?, if_neg notNull, if_neg notTrue, if_neg notFalse]

theorem integer_restored (n : Int) : Restored (.integer n) := by
  obtain ⟨word, text, some, each, read⟩ := integer_word n
  have notName : ∀ name : List Char, (∃ c ∈ name, isNumberChar c = false) → word ≠ name := by
    rintro name ⟨c, member, outside⟩ rfl
    rw [each c member] at outside
    cases outside
  refine .of_word some (fun c member => numberChar_not_delimiter (each c member)) ?_ ?_
  · rw [readWord?_of_not_name (notName _ ⟨'u', by decide, by decide⟩) (notName _ ⟨'r', by decide, by decide⟩)
      (notName _ ⟨'f', by decide, by decide⟩), read]
  · intro level rest
    rw [write, text]

/-- The text of a double has a character that no integer has. -/
theorem number_restored (unsigned : isUnsigned x) : Restored (.number x) := by
  have read : Number.read? (Style.json.text x) = some x := Style.read?_text rfl unsigned
  have notName : ∀ name : String, Number.read? name = none → (Style.json.text x).toList ≠ name.toList := by
    intro name unread same
    rw [String.toList_inj.mp same, unread] at read
    cases read
  obtain ⟨some, each, notInteger⟩ : (Style.json.text x).toList ≠ [] ∧
      (∀ c ∈ (Style.json.text x).toList, isDelimiter c = false) ∧
      readInteger? (Style.json.text x).toList = none := by
    unfold isUnsigned at unsigned
    unfold Style.text
    rw [String.toList_ofList]
    cases shape : binary x with
    | nan =>
      rw [shape] at unsigned
      cases unsigned
    | infinite negative =>
      rw [shape] at unsigned
      obtain rfl : negative = false := by simpa using unsigned
      have each : (Style.json.chars (.infinite false)).all fun c => !isDelimiter c := by decide
      exact ⟨by decide, by simpa using each, by decide⟩
    | finite negative significand exponent =>
      rw [shape] at unsigned
      obtain rfl : negative = false := by simpa using unsigned
      -- the mark in it is no digit, and it does not start with a minus sign
      obtain ⟨first, rest, -, text, digit, numeric, ⟨c, member, mark⟩, -⟩ :=
        Style.json.decimal_reads (shortest significand exponent)
      rw [Style.chars, if_neg Bool.false_ne_true, List.nil_append, text]
      refine ⟨List.cons_ne_nil _ _, fun c member => numberChar_not_delimiter (numeric c member), ?_⟩
      unfold readInteger?
      split
      · rename_i same
        cases (List.cons.inj same).1
        exact absurd digit (by decide)
      · rw [if_neg]
        rintro ⟨-, all⟩
        have each := List.all_eq_true.mp all c (by simp [member])
        rw [mark] at each
        cases each
  refine .of_word some each ?_ fun level rest => by rw [write]
  rw [readWord?_of_not_name (notName "null" rfl) (notName "true" rfl) (notName "false" rfl), notInteger,
    String.ofList_toList, read]
  rfl

theorem string_restored (value : String) : Restored (.string value) := by
  refine ⟨fun level rest => ?_, fun level rest => ⟨'"', _, rfl, rfl, by decide⟩,
    fun fuel level rest _ room => ?_⟩
  · simp [write, writeString]
    omega
  · obtain ⟨fuel, rfl⟩ := Nat.exists_eq_add_one_of_ne_zero (by omega : fuel ≠ 0)
    change (readString _).map _ = _
    rw [readString_write]
    rfl

variable {item first : Json} {items others : List Json} {field : String × Json}
variable {fields : List (String × Json)}

theorem writeItems_longer (each : ∀ item ∈ items, Restored item) (level : Nat) (rest : List Char) :
    rest.length ≤ (writeItems level items rest).length := by
  induction items with
  | nil => exact Nat.le_refl _
  | cons item items ih =>
    have onward := ih fun other listed => each other (by simp [listed])
    have longer := (each item (by simp)).longer level (writeItems level items rest)
    simp only [writeItems, newline, List.length_cons, List.length_append]
    omega

/-- The items of an array are read up to the bracket that closes it. -/
theorem readItems_write (restored : Restored first) (each : ∀ item ∈ others, Restored item)
    (outer : Nat) (rest : List Char)
    (room : 2 * (write level first (writeItems level others (newline outer (']' :: rest)))).length + 1 < fuel) :
    readItems fuel (newline level (write level first
      (writeItems level others (newline outer (']' :: rest))))) = some (first :: others, rest) := by
  induction others generalizing first fuel with
  | nil =>
    obtain ⟨fuel, rfl⟩ := Nat.exists_eq_add_one_of_ne_zero (by omega : fuel ≠ 0)
    have read := restored.reads fuel level (newline outer (']' :: rest)) (by simp [newline]; decide) (by
      simp only [writeItems] at room
      omega)
    rw [readItems, readValue_skip _ (skipSpace_newline level _), writeItems, read, Option.bind_some]
    dsimp only
    rw [skipSpace_newline]
    rfl
  | cons second others ih =>
    obtain ⟨fuel, rfl⟩ := Nat.exists_eq_add_one_of_ne_zero (by omega : fuel ≠ 0)
    obtain ⟨secondRestored, eachOther⟩ := List.forall_mem_cons.mp each
    have read := restored.reads fuel level (writeItems level (second :: others) (newline outer (']' :: rest)))
      (by simp [writeItems]; decide) (by omega)
    -- each item takes at least one character, so the fuel that is left is enough for the others
    have longer := restored.longer level (writeItems level (second :: others) (newline outer (']' :: rest)))
    have less : 2 * (write level second
        (writeItems level others (newline outer (']' :: rest)))).length + 1 < fuel := by
      simp only [writeItems, newline, List.length_cons, List.length_append] at longer room ⊢
      omega
    have onward := ih secondRestored eachOther less
    rw [readItems, readValue_skip _ (skipSpace_newline level _), read, Option.bind_some]
    dsimp only
    rw [writeItems]
    change (readItems fuel _).map _ = _
    rw [onward]
    rfl

theorem array_restored (each : ∀ item ∈ items, Restored item) : Restored (.array items) := by
  refine ⟨fun level rest => ?_, fun level rest => ?_, fun fuel level rest _ room => ?_⟩
  · cases items with
    | nil =>
      simp only [write, List.length_cons]
      omega
    | cons first others =>
      obtain ⟨restored, eachOther⟩ := List.forall_mem_cons.mp each
      have more := writeItems_longer eachOther (level + 1) (newline level (']' :: rest))
      have longer := restored.longer (level + 1) (writeItems (level + 1) others (newline level (']' :: rest)))
      simp only [write, newline, List.length_cons, List.length_append] at more longer ⊢
      omega
  · cases items <;> exact ⟨'[', _, rfl, rfl, by decide⟩
  · obtain ⟨fuel, rfl⟩ := Nat.exists_eq_add_one_of_ne_zero (by omega : fuel ≠ 0)
    cases items with
    | nil => rfl
    | cons first others =>
      obtain ⟨restored, eachOther⟩ := List.forall_mem_cons.mp each
      have less : 2 * (write (level + 1) first
          (writeItems (level + 1) others (newline level (']' :: rest)))).length + 1 < fuel := by
        simp only [write, newline, List.length_cons, List.length_append] at room ⊢
        omega
      have read := readItems_write restored eachOther level rest less
      obtain ⟨start, text, written, solid, open_⟩ := restored.starts (level + 1)
        (writeItems (level + 1) others (newline level (']' :: rest)))
      have skip : skipSpace (newline (level + 1) (write (level + 1) first
          (writeItems (level + 1) others (newline level (']' :: rest))))) = start :: text := by
        rw [skipSpace_newline, written, skipSpace, List.dropWhile_cons, solid]
        rfl
      rw [write]
      change (match skipSpace (newline (level + 1) _) with
        | ']' :: after => some (Json.array [], after)
        | _ => (readItems fuel _).map fun (items, after) => (Json.array items, after)) = _
      rw [skip, read]
      split
      · rename_i same
        exact absurd (List.cons.inj same).1 open_
      · rfl

theorem writeFields_longer (each : ∀ field ∈ fields, Restored field.2) (level : Nat) (rest : List Char) :
    rest.length ≤ (writeFields level fields rest).length := by
  induction fields with
  | nil => exact Nat.le_refl _
  | cons field fields ih =>
    obtain ⟨name, value⟩ := field
    have onward := ih fun other listed => each other (by simp [listed])
    have restored : Restored value := each (name, value) (by simp)
    have longer := restored.longer level (writeFields level fields rest)
    simp only [writeFields, writeField, writeString, newline, List.length_cons, List.length_append]
    omega

/-- A field is read as its name and its value, and then the text goes on with a comma or a bracket. -/
theorem readFields_head {name : String} {value : Json} {after : List Char} (restored : Restored value)
    (ends : ∀ c ∈ after.head?, isDelimiter c)
    (room : 2 * (writeField level (name, value) after).length < fuel + 1) :
    readFields (fuel + 1) (newline level (writeField level (name, value) after)) =
      match skipSpace after with
      | ',' :: rest => (readFields fuel rest).map fun (fields, after) => ((name, value) :: fields, after)
      | '\x7d' :: rest => some ([(name, value)], rest)
      | _ => none := by
  have read := restored.reads fuel level after ends (by
    simp only [writeField, writeString, List.length_cons, List.length_append] at room
    omega)
  have space : readValue fuel (' ' :: write level value after) =
      readValue fuel (write level value after) := readValue_skip fuel rfl
  rw [readFields, skipSpace_newline, writeField, writeString]
  change (readString _).bind _ = _
  rw [readString_write, Option.bind_some]
  change (readValue fuel (' ' :: write level value after)).bind _ = _
  rw [space, read]
  rfl

/-- The fields of an object are read up to the bracket that closes it. -/
theorem readFields_write {otherFields : List (String × Json)} (restored : Restored field.2)
    (each : ∀ field ∈ otherFields, Restored field.2) (outer : Nat) (rest : List Char)
    (room : 2 * (writeField level field
      (writeFields level otherFields (newline outer ('\x7d' :: rest)))).length < fuel) :
    readFields fuel (newline level (writeField level field
      (writeFields level otherFields (newline outer ('\x7d' :: rest))))) =
        some (field :: otherFields, rest) := by
  induction otherFields generalizing field fuel with
  | nil =>
    obtain ⟨name, value⟩ := field
    obtain ⟨fuel, rfl⟩ := Nat.exists_eq_add_one_of_ne_zero (by omega : fuel ≠ 0)
    rw [readFields_head restored (by simp [writeFields, newline]; decide) room, writeFields,
      skipSpace_newline]
    rfl
  | cons second others ih =>
    obtain ⟨name, value⟩ := field
    obtain ⟨fuel, rfl⟩ := Nat.exists_eq_add_one_of_ne_zero (by omega : fuel ≠ 0)
    obtain ⟨secondRestored, eachOther⟩ := List.forall_mem_cons.mp each
    have longer := restored.longer level
      (writeFields level (second :: others) (newline outer ('\x7d' :: rest)))
    have less : 2 * (writeField level second
        (writeFields level others (newline outer ('\x7d' :: rest)))).length < fuel := by
      simp only [writeField, writeString, writeFields, newline, List.length_cons, List.length_append]
        at longer room ⊢
      omega
    have onward := ih secondRestored eachOther less
    rw [readFields_head restored (by simp [writeFields]; decide) room, writeFields]
    change (readFields fuel _).map _ = _
    rw [onward]
    rfl

theorem object_restored (each : ∀ field ∈ fields, Restored field.2) : Restored (.object fields) := by
  refine ⟨fun level rest => ?_, fun level rest => ?_, fun fuel level rest _ room => ?_⟩
  · cases fields with
    | nil =>
      simp only [write, List.length_cons]
      omega
    | cons first others =>
      obtain ⟨name, value⟩ := first
      obtain ⟨restored, eachOther⟩ := List.forall_mem_cons.mp each
      have more := writeFields_longer eachOther (level + 1) (newline level ('\x7d' :: rest))
      have longer := restored.longer (level + 1)
        (writeFields (level + 1) others (newline level ('\x7d' :: rest)))
      simp only [write, writeField, writeString, newline, List.length_cons, List.length_append] at more longer ⊢
      omega
  · cases fields <;> exact ⟨'\x7b', _, rfl, rfl, by decide⟩
  · obtain ⟨fuel, rfl⟩ := Nat.exists_eq_add_one_of_ne_zero (by omega : fuel ≠ 0)
    cases fields with
    | nil => rfl
    | cons first others =>
      obtain ⟨name, value⟩ := first
      obtain ⟨restored, eachOther⟩ := List.forall_mem_cons.mp each
      have less : 2 * (writeField (level + 1) (name, value)
          (writeFields (level + 1) others (newline level ('\x7d' :: rest)))).length < fuel := by
        simp only [write, newline, List.length_cons, List.length_append] at room ⊢
        omega
      have read := readFields_write restored eachOther level rest less
      rw [write]
      change (match skipSpace (newline (level + 1) _) with
        | '\x7d' :: after => some (Json.object [], after)
        | _ => (readFields fuel _).map fun (fields, after) => (Json.object fields, after)) = _
      rw [skipSpace_newline, read]
      rfl

theorem Readable.restored (readable : Readable json) : Restored json := by
  induction readable with
  | null => exact .of_name (by decide) (by decide) rfl fun _ _ => rfl
  | @bool value =>
    cases value with
    | false => exact .of_name (by decide) (by decide) rfl fun _ _ => rfl
    | true => exact .of_name (by decide) (by decide) rfl fun _ _ => rfl
  | number unsigned => exact number_restored unsigned
  | integer => exact integer_restored _
  | string => exact string_restored _
  | array _ ih => exact array_restored ih
  | object _ ih => exact object_restored ih

/-- The text of a value reads back as the value. -/
theorem read?_text (readable : Readable json) : read? json.text = some json := by
  have reads := readable.restored.reads (2 * json.text.length + 1) 0 [] (by simp) (by
    rw [text, String.length_ofList]
    omega)
  rw [read?, text, String.toList_ofList, ← text, reads]
  rfl

end Scriptlet.Json
