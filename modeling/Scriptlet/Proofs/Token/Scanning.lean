import Scriptlet.Proofs.Token.Longest

/-! A source text is cut into tokens by taking the longest one at each place, with gaps between them.
This says exactly which tokens a text has, on which lines they stand, and where it has none. -/
namespace Scriptlet

namespace Scan

open Scriptlet.Action Lexeme

/-- The line of a place: one more than the line feeds before it. -/
def lineAfter (before : List Char) : Int :=
  1 + (before.count '\n' : Nat)

theorem lineAfter_append (before more : List Char) :
    lineAfter (before ++ more) = lineAfter before + (more.count '\n' : Nat) := by
  simp only [lineAfter, List.count_append]
  omega

/-- `Munches before text tokens stop rest`: from the place between `before` and `text`, gaps and
longest tokens lead to the place between `stop` and `rest`. The tokens on the way are `tokens`. -/
inductive Munches : (before text : List Char) → List Token → (stop rest : List Char) → Prop where
  | here : Munches before text [] before text
  | token {tokens : List Token} (between : Gap gap (lexeme ++ tail))
      (plain : opensComment (lexeme ++ tail) = false) (longest : Longest kind lexeme (lexeme ++ tail))
      (onward : Munches (before ++ gap ++ lexeme) tail tokens stop rest) :
      Munches before (gap ++ lexeme ++ tail)
        (⟨kind, String.ofList lexeme, lineAfter (before ++ gap)⟩ :: tokens) stop rest

/-- A character that starts neither a gap nor a token comes after the next gap. -/
def StuckAt (rest gap : List Char) (c : Char) : Prop :=
  ∃ tail, rest = gap ++ c :: tail ∧ Gap gap (c :: tail) ∧ isUnreadable c

section

variable {before text stop rest gap lexeme tail : List Char} {tokens : List Token} {kind : Kind}
variable {cursor : Cursor} {c : Char}

/-- Nothing of a text is lost. -/
theorem Munches.whole (munches : Munches before text tokens stop rest) :
    before ++ text = stop ++ rest := by
  induction munches with
  | here => rfl
  | token _ _ _ _ ih => simpa only [List.append_assoc] using ih

theorem Munches.length_le (munches : Munches before text tokens stop rest) :
    tokens.length + rest.length ≤ text.length := by
  induction munches with
  | here => simp
  | token _ _ longest _ ih =>
    have some := List.length_pos_iff.mpr longest.spelled.ne_nil
    simp only [List.length_append, List.length_cons]
    omega

/-- Every text can be cut up to its end, or up to a character that nothing starts with. -/
theorem exists_munches (before text : List Char) :
    ∃ tokens stop rest, Munches before text tokens stop rest ∧
      (Gap rest [] ∨ ∃ gap c, StuckAt rest gap c) := by
  generalize size : text.length = count
  induction count using Nat.strongRecOn generalizing before text with
  | ind count shorter =>
    obtain ⟨gap, rest, rfl, between, settled⟩ := exists_gap text
    cases rest with
    | nil => exact ⟨[], before, gap ++ [], .here, .inl (by simpa using between)⟩
    | cons c rest =>
      have dark : Text.isBlank c = false := settled.1 c rfl
      cases found : front? (c :: rest) with
      | none =>
        have unreadable := (front?_none_iff dark).mp found
        exact ⟨[], before, gap ++ c :: rest, .here, .inr ⟨gap, c, rest, rfl, between, unreadable⟩⟩
      | some token =>
        obtain ⟨kind, length⟩ := token
        obtain ⟨longest, taken⟩ := front?_longest found
        generalize (c :: rest).take length = lexeme at longest
        obtain ⟨tail, split⟩ := longest.starts
        rw [← split] at between settled longest size ⊢
        have some := List.length_pos_iff.mpr longest.spelled.ne_nil
        have room : tail.length < count := by
          simp only [List.length_append] at size
          omega
        obtain ⟨tokens, stop, last, munches, ends⟩ :=
          shorter tail.length room (before ++ gap ++ lexeme) tail rfl
        rw [← List.append_assoc]
        exact ⟨_, stop, last, .token between settled.2 longest munches, ends⟩

/-- The cursor stands between two parts of a text. -/
def Stands (cursor : Cursor) (before rest : List Char) : Prop :=
  cursor.rest = rest ∧ cursor.line = lineAfter before

theorem Stands.move (stands : Stands cursor before (text ++ rest)) :
    Stands (cursor.move text.length) (before ++ text) rest := by
  obtain ⟨ahead, line⟩ := stands
  constructor
  · rw [Cursor.move, ahead, List.drop_left]
  · rw [lineAfter_append, Cursor.move, ahead, List.take_left, line]

theorem Stands.settle (stands : Stands cursor before (gap ++ rest)) (between : Gap gap rest)
    (settled : Settled rest) : Stands (settle cursor) (before ++ gap) rest := by
  have length : gapLength false 0 cursor.rest = gap.length := by
    rw [stands.1, between.length settled, Nat.zero_add]
  rw [Scan.settle, length]
  exact stands.move

theorem next_munch (stands : Stands cursor before (gap ++ lexeme ++ tail))
    (between : Gap gap (lexeme ++ tail)) (plain : opensComment (lexeme ++ tail) = false)
    (longest : Longest kind lexeme (lexeme ++ tail)) :
    ∃ after, next cursor = .ok ⟨kind, String.ofList lexeme, lineAfter (before ++ gap)⟩ after ∧
      Stands after (before ++ gap ++ lexeme) tail := by
  rw [List.append_assoc] at stands
  have settled := stands.settle between (longest.settled plain)
  refine ⟨_, ?_, settled.move⟩
  obtain ⟨first, more, shape⟩ := List.exists_cons_of_ne_nil longest.spelled.ne_nil
  rw [next_run, settled.1, longest.front?, settled.2, shape, List.cons_append]
  dsimp only
  rw [← List.cons_append, List.take_left]

theorem next_finish (stands : Stands cursor before text) (between : Gap text []) :
    ∃ after, next cursor = .ok ⟨.endOfInput, "", lineAfter (before ++ text)⟩ after := by
  rw [← List.append_nil text] at stands
  have settled := stands.settle between ⟨by simp, rfl⟩
  rw [next_run, settled.1, settled.2]
  exact ⟨_, rfl⟩

theorem next_stuck (stands : Stands cursor before rest) (stuck : StuckAt rest gap c) :
    ∃ after, next cursor = .error ⟨c, lineAfter (before ++ gap)⟩ after := by
  obtain ⟨tail, rfl, between, unreadable⟩ := stuck
  obtain ⟨dark, -, -, unmarked⟩ := isUnreadable_iff.mp unreadable
  have plain : opensComment (c :: tail) = false := by
    have notSlash : c ≠ '/' := by
      rintro rfl
      exact unmarked (['/'], .slash) (by decide) (by decide)
    simp [opensComment_cons, notSlash]
  have settled := stands.settle between ⟨by simpa using dark, plain⟩
  rw [next_run, settled.1, settled.2, (front?_none_iff dark).mpr unreadable]
  exact ⟨_, rfl⟩

/-- The loop collects the tokens on the way, one in each turn. -/
theorem Munches.tokensFrom (munches : Munches before text tokens stop rest)
    (stands : Stands cursor before text) (found : Array Token) (fuel : Nat) :
    ∃ after, Stands after stop rest ∧
      Scan.tokensFrom found (tokens.length + fuel) cursor =
        Scan.tokensFrom (found ++ tokens) fuel after := by
  induction munches generalizing cursor found with
  | here => exact ⟨cursor, stands, by simp⟩
  | token between plain longest _ ih =>
    obtain ⟨middle, read, reached⟩ := next_munch stands between plain longest
    obtain ⟨after, arrived, collected⟩ := ih reached (found.push _)
    refine ⟨after, arrived, ?_⟩
    rw [List.length_cons, Nat.add_right_comm, Scan.tokensFrom, bind_of_ok _ read,
      if_neg longest.spelled.kind_ne_end, collected]
    simp

end

end Scan

open Scan Lexeme

variable {source : String} {tokens : List Token} {stop rest : List Char}

/-- Scanning a text is its loop from the place that the tokens lead to. -/
theorem tokenize_munches (munches : Munches [] source.toList tokens stop rest) :
    ∃ fuel after, Stands after stop rest ∧
      tokenize source = match tokensFrom tokens.toArray (fuel + 1) after with
        | .ok found _ => .ok found.toList
        | .error error _ => .error error := by
  have enough := munches.length_le
  have stands : Stands (Cursor.ofString source) [] source.toList := ⟨rfl, rfl⟩
  obtain ⟨fuel, room⟩ : ∃ fuel, source.toList.length = tokens.length + fuel :=
    Nat.exists_eq_add_of_le (by omega)
  obtain ⟨after, arrived, collected⟩ := munches.tokensFrom stands #[] (fuel + 1)
  have turns : (Cursor.ofString source).rest.length + 1 = tokens.length + (fuel + 1) :=
    congrArg (· + 1) room
  have gathered : (#[] : Array Token) ++ tokens = tokens.toArray := by simp
  refine ⟨fuel, after, arrived, ?_⟩
  rw [tokenize, Scan.tokens, Action.bind_of_ok _ (Action.get_run _), turns, Action.bind_run,
    collected, gathered]
  cases tokensFrom tokens.toArray (fuel + 1) after <;> rfl

theorem tokenize_finished (munches : Munches [] source.toList tokens stop rest) (ends : Gap rest []) :
    tokenize source = .ok (tokens ++ [⟨.endOfInput, "", lineAfter source.toList⟩]) := by
  obtain ⟨fuel, after, arrived, scanned⟩ := tokenize_munches munches
  obtain ⟨last, read⟩ := next_finish arrived ends
  rw [scanned, tokensFrom, Action.bind_of_ok _ read, if_pos rfl, Action.pure_run, ← munches.whole]
  simp

theorem tokenize_stuck (munches : Munches [] source.toList tokens stop rest)
    (stuck : StuckAt rest gap c) : tokenize source = .error ⟨c, lineAfter (stop ++ gap)⟩ := by
  obtain ⟨fuel, after, arrived, scanned⟩ := tokenize_munches munches
  obtain ⟨last, read⟩ := next_stuck arrived stuck
  rw [scanned, tokensFrom, Action.bind_run, read]

/-- The tokens of a text are the longest ones at each place, each with the line it stands on, and
then the end of the input; and a text has no tokens exactly where such a cut reaches a character that
is no blank and that no token starts with, which the error names together with its line. -/
theorem tokenize_maximal_munch (source : String) :
    (∀ tokens, tokenize source = .ok tokens ↔
      ∃ body stop last, Munches [] source.toList body stop last ∧ Gap last [] ∧
        tokens = body ++ [⟨.endOfInput, "", lineAfter source.toList⟩]) ∧
    (∀ c line, tokenize source = .error ⟨c, line⟩ ↔
      ∃ body stop rest gap, Munches [] source.toList body stop rest ∧ StuckAt rest gap c ∧
        line = lineAfter (stop ++ gap)) := by
  obtain ⟨body, stop, rest, munches, ended⟩ := exists_munches [] source.toList
  constructor
  · intro tokens
    constructor
    · intro success
      rcases ended with finished | ⟨gap, c, stuck⟩
      · rw [tokenize_finished munches finished] at success
        cases success
        exact ⟨body, stop, rest, munches, finished, rfl⟩
      · rw [tokenize_stuck munches stuck] at success
        cases success
    · rintro ⟨body, stop, last, munches, finished, rfl⟩
      exact tokenize_finished munches finished
  · intro c line
    constructor
    · intro failed
      rcases ended with finished | ⟨gap, c, stuck⟩
      · rw [tokenize_finished munches finished] at failed
        cases failed
      · rw [tokenize_stuck munches stuck] at failed
        cases failed
        exact ⟨body, stop, rest, gap, munches, stuck, rfl⟩
    · rintro ⟨body, stop, rest, gap, munches, stuck, rfl⟩
      exact tokenize_stuck munches stuck

end Scriptlet
