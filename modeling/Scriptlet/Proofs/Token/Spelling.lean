import Scriptlet.Token.Cursor
import Scriptlet.Proofs.Action

/-! Which texts a token can be written with, and what this says about the tokens of a source: every
one but the last is spelled as its kind demands, and the last stands for the end. -/
namespace Scriptlet

namespace Lexeme

/-- A text as its longest front of characters of one class, and the rest. -/
theorem exists_run (keep : Char → Bool) (text : List Char) :
    ∃ run tail, text = run ++ tail ∧ (∀ c ∈ run, keep c) ∧ ∀ c ∈ tail.head?, keep c = false := by
  induction text with
  | nil => exact ⟨[], [], by simp⟩
  | cons first rest ih =>
    cases kept : keep first with
    | true =>
      obtain ⟨run, tail, rfl, each, ends⟩ := ih
      exact ⟨first :: run, tail, rfl, by simpa [kept] using each, ends⟩
    | false => exact ⟨[], first :: rest, rfl, by simp, by simp [kept]⟩

theorem takeWhile_run {keep : Char → Bool} {run tail : List Char} (each : ∀ c ∈ run, keep c)
    (ends : ∀ c ∈ tail.head?, keep c = false) : (run ++ tail).takeWhile keep = run := by
  rw [List.takeWhile_append_of_pos each]
  cases tail with
  | nil => simp
  | cons c tail => simp [ends c (by simp)]

theorem digitRun_run {whole tail : List Char} (digits : ∀ c ∈ whole, Text.isDigit c)
    (ends : ∀ c ∈ tail.head?, Text.isDigit c = false) : digitRun (whole ++ tail) = whole.length := by
  rw [digitRun, takeWhile_run digits ends]

/-- A numeric literal: digits, and where there is a fraction a point and its digits. -/
def numeral (whole fraction : List Char) : List Char :=
  whole ++ if fraction = [] then [] else '.' :: fraction

/-- What follows a numeric literal does not carry it on. -/
def NumeralEnds (fraction tail : List Char) : Prop :=
  (∀ c ∈ tail.head?, Text.isDigit c = false) ∧
    (fraction = [] → ∀ rest, tail = '.' :: rest → ∀ c ∈ rest.head?, Text.isDigit c = false)

theorem numberLength_numeral {whole fraction tail : List Char}
    (digits : ∀ c ∈ whole ++ fraction, Text.isDigit c) (ends : NumeralEnds fraction tail) :
    numberLength (numeral whole fraction ++ tail) = (numeral whole fraction).length := by
  have wholeDigits : ∀ c ∈ whole, Text.isDigit c := fun c member => digits c (by simp [member])
  by_cases none : fraction = []
  · subst none
    simp only [numeral, ↓reduceIte, List.append_nil, numberLength, digitRun_run wholeDigits ends.1,
      List.drop_left]
    split
    · rename_i rest
      have nothing : digitRun ([] ++ rest) = 0 := digitRun_run (by simp) (ends.2 rfl rest rfl)
      rw [List.nil_append] at nothing
      simp [nothing]
    · rfl
  · have fractionDigits : ∀ c ∈ fraction, Text.isDigit c := fun c member => digits c (by simp [member])
    have point : ∀ c ∈ ('.' :: (fraction ++ tail)).head?, Text.isDigit c = false := by
      simp [Text.isDigit]
    have length : fraction.length ≠ 0 := by simpa using none
    simp only [numeral, if_neg none, List.append_assoc, List.cons_append, numberLength,
      digitRun_run wholeDigits point, List.drop_left, digitRun_run fractionDigits ends.1,
      if_neg length, List.length_append, List.length_cons]
    omega

/-- The digits at the front of a text, with the point and the digits after it, if there are any. -/
theorem exists_numeral (text : List Char) :
    ∃ whole fraction tail, text = numeral whole fraction ++ tail ∧
      (∀ c ∈ whole ++ fraction, Text.isDigit c) ∧ NumeralEnds fraction tail := by
  obtain ⟨whole, tail, rfl, digits, ends⟩ := exists_run Text.isDigit text
  by_cases pointed : ∃ rest, tail = '.' :: rest ∧ ∃ c ∈ rest.head?, Text.isDigit c
  · obtain ⟨rest, rfl, c, starts, digit⟩ := pointed
    obtain ⟨fraction, tail, rfl, fractionDigits, fractionEnds⟩ := exists_run Text.isDigit rest
    have some : fraction ≠ [] := by
      rintro rfl
      simp [fractionEnds c starts] at digit
    refine ⟨whole, fraction, tail, by simp [numeral, some], ?_, fractionEnds,
      fun none => absurd none some⟩
    intro c member
    exact (List.mem_append.mp member).elim (digits c) (fractionDigits c)
  · refine ⟨whole, [], tail, by simp [numeral], by simpa using digits, ends, fun _ rest split => ?_⟩
    intro c starts
    exact Bool.eq_false_iff.mpr fun digit => pointed ⟨rest, split, c, starts, digit⟩

theorem wordLength_run {word tail : List Char} (each : ∀ c ∈ word, isWordChar c)
    (ends : ∀ c ∈ tail.head?, isWordChar c = false) :
    wordLength (first :: word ++ tail) = (first :: word).length := by
  simp only [wordLength, List.cons_append, List.drop_succ_cons, List.drop_zero,
    takeWhile_run each ends, List.length_cons]
  omega

/-- The texts of the tokens of a kind. -/
inductive Spelled : Kind → List Char → Prop where
  | mark (listed : (text, kind) ∈ marks) : Spelled kind text
  | number (some : whole ≠ []) (digits : ∀ c ∈ whole ++ fraction, Text.isDigit c) :
      Spelled .number (numeral whole fraction)
  | word (letter : Text.isLetter first) (each : ∀ c ∈ rest, isWordChar c) :
      Spelled (Kind.ofWord (String.ofList (first :: rest))) (first :: rest)

theorem Spelled.ne_nil (spelled : Spelled kind text) : text ≠ [] := by
  cases spelled with
  | mark listed =>
    have nonempty : ∀ mark ∈ marks, mark.1 ≠ [] := by decide
    exact nonempty _ listed
  | number some => simp [numeral, some]
  | word => simp

/-- A word is never the end of the input, nor a token that only other kinds of text make. -/
theorem ofWord_mem (word : String) :
    Kind.ofWord word = .identifier ∨ (word, Kind.ofWord word) ∈ Kind.keywords := by
  unfold Kind.ofWord
  cases found : Kind.keywords.lookup word with
  | none => exact .inl rfl
  | some kind =>
    obtain ⟨before, after, split, -⟩ := List.lookup_eq_some_iff.mp found
    exact .inr (by simp [split])

theorem ofWord_ne {word : String} {kind : Kind} (notName : kind ≠ .identifier)
    (notKeyword : ∀ keyword ∈ Kind.keywords, keyword.2 ≠ kind) : Kind.ofWord word ≠ kind := by
  intro same
  rcases ofWord_mem word with isName | listed
  · exact notName (same.symm.trans isName)
  · exact notKeyword _ listed same

theorem Spelled.of_number (spelled : Spelled .number text) :
    ∃ whole fraction, whole ≠ [] ∧ (∀ c ∈ whole ++ fraction, Text.isDigit c) ∧
      text = numeral whole fraction := by
  generalize same : Kind.number = kind at spelled
  cases spelled with
  | mark listed =>
    have different : ∀ mark ∈ marks, Kind.number ≠ mark.2 := by decide
    exact absurd same (different _ listed)
  | number some digits => exact ⟨_, _, some, digits, rfl⟩
  | word => exact absurd same.symm (ofWord_ne (by decide) (by decide))

/-- A token whose kind is no word and no number is written as the mark of that kind. -/
theorem Spelled.of_mark (spelled : Spelled kind text) (notNumber : kind ≠ .number)
    (notName : kind ≠ .identifier) (notKeyword : ∀ keyword ∈ Kind.keywords, keyword.2 ≠ kind) :
    (text, kind) ∈ marks := by
  cases spelled with
  | mark listed => exact listed
  | number => exact absurd rfl notNumber
  | word => exact absurd rfl (ofWord_ne notName notKeyword)

theorem Spelled.kind_ne_end (spelled : Spelled kind text) : kind ≠ .endOfInput := by
  cases spelled with
  | mark listed =>
    have real : ∀ mark ∈ marks, mark.2 ≠ .endOfInput := by decide
    exact real _ listed
  | number => decide
  | word => exact ofWord_ne (by decide) (by decide)

theorem mark?_spelled (found : mark? text = some (kind, length)) :
    Spelled kind (text.take length) := by
  simp only [mark?, Option.map_eq_some_iff] at found
  obtain ⟨⟨chars, _⟩, first, same⟩ := found
  cases same
  have starts := List.find?_some first
  obtain ⟨rest, rfl⟩ := List.isPrefixOf_iff_prefix.mp starts
  rw [List.take_left]
  exact .mark (List.mem_of_find?_eq_some first)

theorem number_spelled (digit : Text.isDigit first) :
    Spelled .number ((first :: rest).take (numberLength (first :: rest))) := by
  obtain ⟨whole, fraction, tail, split, digits, ends⟩ := exists_numeral (first :: rest)
  have some : whole ≠ [] := by
    rintro rfl
    by_cases none : fraction = []
    · simp only [numeral, none, List.nil_append, ↓reduceIte] at split
      simpa [← split, digit] using ends.1 first
    · simp only [numeral, if_neg none, List.nil_append, List.cons_append, List.cons.injEq] at split
      rw [split.1] at digit
      exact absurd digit (by decide)
  rw [split, numberLength_numeral digits ends, List.take_left]
  exact .number some digits

theorem word_spelled (letter : Text.isLetter first) :
    Spelled (Kind.ofWord (String.ofList ((first :: rest).take (wordLength (first :: rest)))))
      ((first :: rest).take (wordLength (first :: rest))) := by
  obtain ⟨word, tail, rfl, each, ends⟩ := exists_run isWordChar rest
  rw [← List.cons_append, wordLength_run each ends, List.take_left]
  exact .word letter each

theorem front?_spelled (found : front? text = some (kind, length)) :
    Spelled kind (text.take length) := by
  unfold front? at found
  split at found
  · rename_i marked
    cases found
    exact mark?_spelled marked
  · cases found
  · split at found
    · rename_i digit
      cases found
      exact number_spelled digit
    · split at found
      · rename_i letter
        cases found
        exact word_spelled letter
      · cases found

end Lexeme

namespace Scan

open Scriptlet.Action

/-- The place of the next token: after the blanks and comments. -/
def settle (cursor : Cursor) : Cursor :=
  cursor.move (Lexeme.gapLength false 0 cursor.rest)

theorem next_run (cursor : Cursor) : next cursor =
    match (settle cursor).rest, Lexeme.front? (settle cursor).rest with
    | [], _ => .ok ⟨.endOfInput, "", (settle cursor).line⟩ (settle cursor)
    | _, some (kind, length) =>
      .ok ⟨kind, String.ofList ((settle cursor).rest.take length), (settle cursor).line⟩
        ((settle cursor).move length)
    | c :: _, none => .error ⟨c, (settle cursor).line⟩ (settle cursor) := by
  have unfolded : next cursor = (do
      let cursor ← get
      match cursor.rest, Lexeme.front? cursor.rest with
      | [], _ => return ⟨.endOfInput, "", cursor.line⟩
      | _, some (kind, length) => return ⟨kind, ← take length, cursor.line⟩
      | c :: _, none => throw ⟨c, cursor.line⟩ : Scan Token) (settle cursor) := rfl
  rw [unfolded, bind_of_ok _ (get_run (settle cursor))]
  obtain ⟨text, rest, pos, line⟩ := settle cursor
  cases rest with
  | nil => rfl
  | cons c rest =>
    dsimp only
    cases Lexeme.front? (c :: rest) <;> rfl

theorem length_settle_le (cursor : Cursor) : (settle cursor).rest.length ≤ cursor.rest.length := by
  simp [settle, Cursor.move]

/-- The next token is the end of the input, or else it is spelled as its kind demands and its text
is consumed. -/
theorem next_token (success : next cursor = .ok token after) :
    (token.kind = .endOfInput ∧ token.lexeme = "") ∨
      (Lexeme.Spelled token.kind token.lexeme.toList ∧ after.rest.length < cursor.rest.length) := by
  have bound := length_settle_le cursor
  rw [next_run] at success
  split at success
  · cases success
    exact .inl ⟨rfl, rfl⟩
  · rename_i found _
    cases success
    have spelled := Lexeme.front?_spelled found
    refine .inr ⟨by simpa using spelled, ?_⟩
    have length := List.length_pos_iff.mpr spelled.ne_nil
    simp only [List.length_take, Cursor.move, List.length_drop] at length ⊢
    omega
  · cases success

theorem tokensFrom_tokens {tokens : Array Token}
    (success : tokensFrom found fuel cursor = .ok tokens after)
    (enough : cursor.rest.length < fuel) :
    ∃ body last, tokens.toList = found.toList ++ body ++ [last] ∧ last.kind = .endOfInput ∧
      ∀ token ∈ body, Lexeme.Spelled token.kind token.lexeme.toList := by
  induction fuel generalizing cursor found with
  | zero => omega
  | succ fuel ih =>
    obtain ⟨token, place, atToken, success⟩ := bind_eq_ok.mp success
    by_cases ended : token.kind = .endOfInput
    · rw [if_pos ended, pure_eq_ok] at success
      obtain ⟨rfl, rfl⟩ := success
      exact ⟨[], token, by simp, ended, by simp⟩
    · rw [if_neg ended] at success
      rcases next_token atToken with ⟨last, -⟩ | ⟨spelled, shorter⟩
      · exact absurd last ended
      · obtain ⟨body, last, split, isLast, each⟩ := ih success (by omega)
        exact ⟨token :: body, last, by simp [split], isLast, by simpa [spelled] using each⟩

end Scan

/-- The tokens of a source: spelled ones, and then the end of the input. -/
theorem tokenize_tokens (success : tokenize source = .ok tokens) :
    ∃ body last, tokens = body ++ [last] ∧ last.kind = .endOfInput ∧
      ∀ token ∈ body, Lexeme.Spelled token.kind token.lexeme.toList := by
  unfold tokenize at success
  split at success
  · rename_i found _ scanned
    cases success
    obtain ⟨start, _, got, scanned⟩ := Action.bind_eq_ok.mp scanned
    cases got
    obtain ⟨listed, _, looped, finished⟩ := Action.bind_eq_ok.mp scanned
    obtain ⟨rfl, rfl⟩ := Action.pure_eq_ok.mp finished
    obtain ⟨body, last, split, ended, each⟩ := Scan.tokensFrom_tokens looped (by omega)
    exact ⟨body, last, by simpa using split, ended, each⟩
  · cases success

end Scriptlet
