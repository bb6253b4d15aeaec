import Scriptlet.Proofs.Token.Joining

/-! A cursor that is asked for anything in any order. All it ever does is to move on over the text, so its
line and the rest of the text always belong to its position; and what the next token is depends on this
place alone. -/
namespace Scriptlet

open Scriptlet.Action Scan Lexeme

namespace Cursor

variable {cursor : Cursor}

theorem move_zero (cursor : Cursor) : cursor.move 0 = cursor := by
  obtain ⟨text, rest, pos, line⟩ := cursor
  simp [move]

theorem move_move (cursor : Cursor) (first second : Nat) :
    (cursor.move first).move second = cursor.move (first + second) := by
  obtain ⟨text, rest, pos, line⟩ := cursor
  unfold move
  simp only [List.drop_drop, List.take_add, List.count_append, mk.injEq, true_and]
  omega

/-- Past the end only the position changes. -/
theorem move_end (ended : cursor.rest = []) (count : Nat) :
    (cursor.move count).rest = [] ∧ (cursor.move count).line = cursor.line := by
  simp [move, ended]

/-- What stands ahead of the cursor, and its line, are those of its position. -/
structure Consistent (cursor : Cursor) : Prop where
  rest : cursor.rest = cursor.text.drop cursor.pos
  line : cursor.line = lineAfter (cursor.text.take cursor.pos)

theorem Consistent.ofString (source : String) : (ofString source).Consistent :=
  ⟨rfl, rfl⟩

theorem Consistent.move (consistent : cursor.Consistent) (count : Nat) :
    (cursor.move count).Consistent := by
  constructor
  · rw [Cursor.move, consistent.rest, List.drop_drop]
  · rw [Cursor.move, consistent.rest, consistent.line, List.take_add, lineAfter_append]

theorem Consistent.current? (consistent : cursor.Consistent) :
    cursor.current? = cursor.text[cursor.pos]? := by
  rw [Cursor.current?, consistent.rest, List.head?_drop]

end Cursor

namespace Scan

/-- What a cursor can be asked for. -/
inductive Request where
  | advance | skipBlanks | skipLine | number | word | next | tokens

/-- The cursor after it was asked, be the answer a result or an error. -/
def Request.after (cursor : Cursor) : Request → Cursor
  | .advance => final (Scan.advance cursor)
  | .skipBlanks => final (Scan.skipBlanks cursor)
  | .skipLine => final (Scan.skipLine cursor)
  | .number => final (Scan.number cursor)
  | .word => final (Scan.word cursor)
  | .next => final (Scan.next cursor)
  | .tokens => final (Scan.tokens cursor)

def afterAll (cursor : Cursor) (requests : List Request) : Cursor :=
  requests.foldl Request.after cursor

variable {cursor after : Cursor} {token : Token} {error : LexError}

theorem next_moves (cursor : Cursor) : ∃ count, final (next cursor) = cursor.move count := by
  rw [next_run]
  split
  · exact ⟨_, rfl⟩
  · exact ⟨_, Cursor.move_move ..⟩
  · exact ⟨_, rfl⟩

theorem tokensFrom_moves (found : Array Token) (fuel : Nat) (cursor : Cursor) :
    ∃ count, final (tokensFrom found fuel cursor) = cursor.move count := by
  induction fuel generalizing found cursor with
  | zero => exact ⟨0, cursor.move_zero.symm⟩
  | succ fuel ih =>
    obtain ⟨first, began⟩ := next_moves cursor
    rw [tokensFrom, bind_run]
    cases outcome : next cursor with
    | error error reached =>
      rw [outcome] at began
      exact ⟨first, began⟩
    | ok token reached =>
      rw [outcome] at began
      dsimp only
      split
      · exact ⟨first, began⟩
      · obtain ⟨second, went⟩ := ih (found.push token) reached
        refine ⟨first + second, ?_⟩
        rw [went, ← Cursor.move_move, ← began]
        rfl

/-- Whatever a cursor is asked for, it moves on over the text. -/
theorem request_moves (request : Request) (cursor : Cursor) :
    ∃ count, request.after cursor = cursor.move count := by
  cases request with
  | advance => exact ⟨1, rfl⟩
  | skipBlanks => exact ⟨_, rfl⟩
  | skipLine => exact ⟨_, rfl⟩
  | number => exact ⟨_, rfl⟩
  | word => exact ⟨_, rfl⟩
  | next => exact next_moves cursor
  | tokens =>
    obtain ⟨count, moved⟩ := tokensFrom_moves #[] (cursor.rest.length + 1) cursor
    refine ⟨count, ?_⟩
    rw [← moved, Request.after, tokens, bind_of_ok _ (get_run cursor), bind_run]
    cases tokensFrom #[] (cursor.rest.length + 1) cursor with
    | ok tokens reached => rfl
    | error error reached => rfl

theorem afterAll_moves (requests : List Request) (cursor : Cursor) :
    ∃ count, afterAll cursor requests = cursor.move count := by
  induction requests generalizing cursor with
  | nil => exact ⟨0, cursor.move_zero.symm⟩
  | cons request requests ih =>
    obtain ⟨first, began⟩ := request_moves request cursor
    obtain ⟨second, went⟩ := ih (request.after cursor)
    refine ⟨first + second, ?_⟩
    rw [← Cursor.move_move, ← began]
    exact went

section Gaps

variable {gap passed ahead rest : List Char}

theorem settle_gap (split : cursor.rest = gap ++ rest) (between : Gap gap rest)
    (settled : Settled rest) : settle cursor = cursor.move gap.length := by
  rw [settle, split, between.length settled, Nat.zero_add]

theorem settle_settled (settled : Settled cursor.rest) : settle cursor = cursor := by
  rw [settle_gap (List.nil_append cursor.rest).symm .none settled]
  exact cursor.move_zero

/-- The next token is the same from anywhere in the gap in front of it. -/
theorem next_passed (split : cursor.rest = passed ++ ahead) (between : Gap passed ahead) :
    next (cursor.move passed.length) = next cursor := by
  obtain ⟨gap, rest, rfl, further, settled⟩ := exists_gap ahead
  have there : (cursor.move passed.length).rest = gap ++ rest := by
    rw [Cursor.move, split, List.drop_left]
  have whole : cursor.rest = passed ++ gap ++ rest := by
    rw [split, List.append_assoc]
  have same : settle (cursor.move passed.length) = settle cursor := by
    rw [settle_gap there further settled, settle_gap whole (between.append further) settled,
      Cursor.move_move, List.length_append]
  rw [next_run, next_run, same]

theorem gap_of_blanks (blanks : ∀ c ∈ passed, Text.isBlank c) (rest : List Char) : Gap passed rest := by
  induction passed with
  | nil => exact .none
  | cons c passed ih =>
    obtain ⟨first, others⟩ := List.forall_mem_cons.mp blanks
    exact .blank first (ih others)

/-- To skip blanks does not change what the next token is. -/
theorem next_skipBlanks (cursor : Cursor) :
    next (cursor.move (blankLength cursor.rest)) = next cursor := by
  obtain ⟨passed, ahead, split, blanks, ends⟩ := exists_run Text.isBlank cursor.rest
  have length : blankLength cursor.rest = passed.length := by
    rw [blankLength, split, takeWhile_run blanks ends]
  rw [length]
  exact next_passed split (gap_of_blanks blanks ahead)

/-- Nor does it to skip the rest of the line, where that is a comment. -/
theorem next_skipLine (opens : opensComment cursor.rest) :
    next (cursor.move (lineLength cursor.rest)) = next cursor := by
  obtain ⟨after, shape⟩ := List.isPrefixOf_iff_prefix.mp opens
  obtain ⟨body, ahead, split, unbroken, ends⟩ := exists_run (· != '\n') after
  have within : ∀ c ∈ '/' :: '/' :: body, (c != '\n') = true := by simpa using unbroken
  have whole : cursor.rest = '/' :: '/' :: body ++ ahead := by
    rw [← shape, split]
    rfl
  have length : lineLength cursor.rest = ('/' :: '/' :: body).length := by
    rw [lineLength, whole, takeWhile_run within ends]
  have between : Gap ('/' :: '/' :: body ++ []) ahead := by
    refine .comment body ?_ ?_ .none
    · intro member
      simpa using unbroken _ member
    · intro c first
      simpa using ends c first
  rw [List.append_nil] at between
  rw [length]
  exact next_passed whole between

end Gaps

/-- One token in turns: each turn skips a run of blanks or a comment, or else it reads the token. There is
no token where the turns are used up. -/
def nextWithin : (turns : Nat) → Scan (Option Token)
  | 0 => return none
  | turns + 1 => do
    let cursor ← get
    match cursor.rest with
    | [] => return some ⟨.endOfInput, "", cursor.line⟩
    | c :: _ =>
      if Text.isBlank c then
        skipBlanks
        nextWithin turns
      else if opensComment cursor.rest then
        skipLine
        nextWithin turns
      else match front? cursor.rest with
        | some (kind, length) => return some ⟨kind, ← take length, cursor.line⟩
        | none => throw ⟨c, cursor.line⟩

/-- What one gap and the token after it make of a cursor. -/
theorem next_cases (cursor : Cursor) :
    ∃ gap rest, cursor.rest = gap ++ rest ∧ Gap gap rest ∧ Settled rest ∧
      (rest = [] ∧ next cursor =
          .ok ⟨.endOfInput, "", (cursor.move gap.length).line⟩ (cursor.move gap.length) ∨
        (∃ kind length, front? rest = some (kind, length) ∧ next cursor =
          .ok ⟨kind, String.ofList (rest.take length), (cursor.move gap.length).line⟩
            ((cursor.move gap.length).move length)) ∨
        ∃ c tail, rest = c :: tail ∧ next cursor =
          .error ⟨c, (cursor.move gap.length).line⟩ (cursor.move gap.length)) := by
  obtain ⟨gap, rest, split, between, settled⟩ := exists_gap cursor.rest
  have place := settle_gap split between settled
  have there : (cursor.move gap.length).rest = rest := by
    rw [Cursor.move, split, List.drop_left]
  refine ⟨gap, rest, split, between, settled, ?_⟩
  rw [next_run, place, there]
  cases rest with
  | nil => exact .inl ⟨rfl, rfl⟩
  | cons c tail =>
    cases found : front? (c :: tail) with
    | none => exact .inr (.inr ⟨c, tail, rfl, rfl⟩)
    | some token => exact .inr (.inl ⟨token.1, token.2, rfl, rfl⟩)

theorem length_move_lt {count : Nat} (some : cursor.rest ≠ []) (moves : 0 < count) :
    (cursor.move count).rest.length < cursor.rest.length := by
  have present := List.length_pos_iff.mpr some
  rw [Cursor.move, List.length_drop]
  omega

/-- Each turn that skips something leaves less of the text, so there are enough turns to get to a token. -/
theorem nextWithin_eq (enough : cursor.rest.length < turns) :
    nextWithin turns cursor = (some <$> next : Scan (Option Token)) cursor := by
  induction turns generalizing cursor with
  | zero => cases enough
  | succ turns ih =>
    have skipped {count : Nat} (present : cursor.rest ≠ []) (moves : 0 < count)
        (same : next (cursor.move count) = next cursor) :
        nextWithin turns (cursor.move count) = (some <$> next : Scan (Option Token)) cursor := by
      have shorter := length_move_lt present moves
      rw [ih (by omega), map_eq_pure_bind, bind_run, bind_run, same]
    rw [nextWithin, bind_of_ok _ (get_run cursor)]
    cases shape : cursor.rest with
    | nil =>
      have settled : Settled cursor.rest := by simp [shape, Settled, opensComment]
      rw [map_eq_pure_bind, bind_run, next_run, settle_settled settled, shape]
    | cons c tail =>
      have present : cursor.rest ≠ [] := by simp [shape]
      dsimp only
      split
      · rename_i blank
        have moves : 0 < blankLength cursor.rest := by simp [blankLength, shape, blank]
        exact skipped present moves (next_skipBlanks cursor)
      · rename_i dark
        split
        · rename_i opens
          rw [← shape] at opens
          have moves : 0 < lineLength cursor.rest := by
            obtain ⟨after, slashes⟩ := List.isPrefixOf_iff_prefix.mp opens
            simp [lineLength, ← slashes]
          exact skipped present moves (next_skipLine opens)
        · rename_i plain
          have settled : Settled cursor.rest := by
            rw [shape]
            exact ⟨by simpa using dark, Bool.eq_false_iff.mpr plain⟩
          rw [map_eq_pure_bind, bind_run, next_run, settle_settled settled, shape]
          cases front? (c :: tail) with
          | none => rfl
          | some token =>
            have taken : take token.2 cursor =
                .ok (String.ofList (cursor.rest.take token.2)) (cursor.move token.2) := rfl
            dsimp only
            rw [bind_of_ok _ taken, shape]

/-- More turns than characters make no difference to the loop over all tokens. -/
theorem tokensFrom_enough (found : Array Token) (enough : cursor.rest.length < fuel)
    (again : cursor.rest.length < other) : tokensFrom found fuel cursor = tokensFrom found other cursor := by
  induction fuel generalizing other found cursor with
  | zero => cases enough
  | succ fuel ih =>
    obtain ⟨other, rfl⟩ := Nat.exists_eq_add_of_lt (Nat.lt_of_le_of_lt (Nat.zero_le _) again)
    rw [Nat.zero_add] at again ⊢
    rw [tokensFrom, tokensFrom, bind_run, bind_run]
    cases outcome : next cursor with
    | error error after => rfl
    | ok token after =>
      dsimp only
      split
      · rfl
      · rename_i real
        rcases next_token outcome with ⟨ended, -⟩ | ⟨-, shorter⟩
        · exact absurd ended real
        · exact ih _ (by omega) (by omega)

/-- A part of a text between two positions. -/
def slice (text : List Char) (start stop : Nat) : List Char :=
  (text.take stop).drop start

section Outcomes

/-- A token is the text from where the gap ends to where the cursor stands then. -/
theorem next_slice (consistent : cursor.Consistent) (read : next cursor = .ok token after)
    (real : token.kind ≠ .endOfInput) :
    ∃ start, cursor.pos ≤ start ∧ start < after.pos ∧
      Gap (slice cursor.text cursor.pos start) (cursor.text.drop start) ∧
      Settled (cursor.text.drop start) ∧
      token.lexeme = String.ofList (slice cursor.text start after.pos) ∧
      token.line = lineAfter (cursor.text.take start) := by
  obtain ⟨gap, rest, split, between, settled, ended | ⟨kind, length, found, ran⟩ | ⟨c, tail, rfl, ran⟩⟩ :=
    next_cases cursor
  · rw [ended.2] at read
    cases read
    exact absurd rfl real
  · rw [ran] at read
    cases read
    have place := (consistent.move gap.length)
    have here : cursor.text.drop (cursor.pos + gap.length) = rest := by
      rw [← List.drop_drop, ← consistent.rest, split, List.drop_left]
    have passed : slice cursor.text cursor.pos (cursor.pos + gap.length) = gap := by
      rw [slice, List.drop_take, Nat.add_sub_cancel_left, ← consistent.rest, split, List.take_left]
    obtain ⟨longest, fits⟩ := front?_longest found
    have some := List.length_pos_iff.mpr longest.spelled.ne_nil
    refine ⟨cursor.pos + gap.length, Nat.le_add_right _ _, ?_, ?_, ?_, ?_, place.line⟩
    · show cursor.pos + gap.length < cursor.pos + gap.length + length
      omega
    · rwa [passed, here]
    · rwa [here]
    · show _ = String.ofList (slice cursor.text _ (cursor.pos + gap.length + length))
      rw [slice, List.drop_take, Nat.add_sub_cancel_left, here]
  · rw [ran] at read
    cases read

/-- At the end of the text there is nothing but the end, however the cursor is used. -/
theorem next_end (consistent : cursor.Consistent) (read : next cursor = .ok token after)
    (ended : token.kind = .endOfInput) :
    token = ⟨.endOfInput, "", lineAfter cursor.text⟩ ∧
      ∀ requests, next (afterAll after requests) = .ok token (afterAll after requests) := by
  obtain ⟨gap, rest, split, between, settled, outcome⟩ := next_cases cursor
  rcases outcome with ⟨rfl, ran⟩ | ⟨kind, length, found, ran⟩ | ⟨c, tail, rfl, ran⟩
  · rw [ran] at read
    cases read
    have place := consistent.move gap.length
    have finished : (cursor.move gap.length).rest = [] := by
      rw [Cursor.move, split, List.drop_left]
    have all : (cursor.move gap.length).text.take (cursor.move gap.length).pos = cursor.text := by
      apply List.take_of_length_le
      rw [← List.drop_eq_nil_iff, ← place.rest, finished]
    refine ⟨?_, fun requests => ?_⟩
    · rw [place.line, all]
    · obtain ⟨count, moved⟩ := afterAll_moves requests (cursor.move gap.length)
      obtain ⟨nothing, sameLine⟩ := Cursor.move_end finished count
      rw [moved, next_run, settle_settled (by simp [nothing, Settled, opensComment]), nothing, sameLine]
  · rw [ran] at read
    cases read
    exact absurd ended (front?_spelled found).kind_ne_end
  · rw [ran] at read
    cases read

/-- A character that no token starts with is not passed, and complained about again. -/
theorem next_again (failed : next cursor = .error error after) :
    after.current? = some error.character ∧ error.line = after.line ∧ next after = .error error after := by
  obtain ⟨gap, rest, split, between, settled, ended | ⟨kind, length, found, ran⟩ | ⟨c, tail, rfl, ran⟩⟩ :=
    next_cases cursor
  · rw [ended.2] at failed
    cases failed
  · rw [ran] at failed
    cases failed
  · have again := next_passed split between
    rw [ran] at failed again
    cases failed
    refine ⟨?_, rfl, again⟩
    rw [Cursor.current?, Cursor.move, split, List.drop_left]
    rfl

end Outcomes

/-- Whatever was asked of a cursor before, errors included: its current character and its line are those
of its position, and it never goes back. The next token is found in finitely many turns, each of which
skips blanks or a comment. It is exactly the text from the end of the gap to the new position, which lies
further on; the end of the text stays the end for ever; and at a character that no token starts with the
cursor stops, so that it fails again in the same way. -/
theorem cursor_stays_consistent (source : String) (requests : List Request) :
    let text := source.toList
    let cursor := afterAll (Cursor.ofString source) requests
    cursor.text = text ∧ cursor.current? = text[cursor.pos]? ∧
    cursor.line = lineAfter (text.take cursor.pos) ∧
    (∀ request : Request, cursor.pos ≤ (request.after cursor).pos) ∧
    (∀ turns, cursor.rest.length < turns →
      nextWithin turns cursor = (some <$> next : Scan (Option Token)) cursor) ∧
    (∀ found turns, cursor.rest.length < turns →
      tokensFrom found turns cursor = tokensFrom found (cursor.rest.length + 1) cursor) ∧
    (∀ token after, next cursor = .ok token after → token.kind ≠ .endOfInput →
      ∃ start, cursor.pos ≤ start ∧ start < after.pos ∧
        Gap (slice text cursor.pos start) (text.drop start) ∧ Settled (text.drop start) ∧
        token.lexeme = String.ofList (slice text start after.pos) ∧
        token.line = lineAfter (text.take start)) ∧
    (∀ token after, next cursor = .ok token after → token.kind = .endOfInput →
      token = ⟨.endOfInput, "", lineAfter text⟩ ∧
        ∀ more, next (afterAll after more) = .ok token (afterAll after more)) ∧
    (∀ error after, next cursor = .error error after →
      text[after.pos]? = some error.character ∧ error.line = lineAfter (text.take after.pos) ∧
        next after = .error error after) := by
  intro text cursor
  obtain ⟨count, moved⟩ := afterAll_moves requests (Cursor.ofString source)
  have consistent : cursor.Consistent := by
    have moves := (Cursor.Consistent.ofString source).move count
    rwa [← moved] at moves
  have same : cursor.text = text := congrArg Cursor.text moved
  have here := consistent.current?
  have line := consistent.line
  rw [same] at here line
  clear_value text cursor
  refine ⟨same, here, line, ?_, fun _ => nextWithin_eq, ?_, ?_, ?_, ?_⟩
  · intro request
    obtain ⟨further, went⟩ := request_moves request cursor
    rw [went]
    exact Nat.le_add_right _ _
  · intro found turns enough
    exact tokensFrom_enough found enough (Nat.lt_succ_self _)
  · intro token after read real
    have part := next_slice consistent read real
    rwa [same] at part
  · intro token after read ended
    have finish := next_end consistent read ended
    rwa [same] at finish
  · intro error after failed
    obtain ⟨further, went⟩ := next_moves cursor
    rw [failed] at went
    have place := consistent.move further
    rw [← show after = cursor.move further from went] at place
    have kept : after.text = text := by
      rw [show after = cursor.move further from went]
      exact same
    obtain ⟨stands, sameLine, again⟩ := next_again failed
    rw [place.current?, kept] at stands
    rw [place.line, kept] at sameLine
    exact ⟨stands, sameLine, again⟩

/-- After the number in `7 .` the cursor goes on to the point, and there it fails as often as it is asked for
the next token. Once it is moved on past the line feed, the end of the text is all there is, even far behind
it. -/
theorem cursor_stays_consistent_strayPoint :
    let begun := afterAll (Cursor.ofString "7 .\n") [.next]
    let stuck := begun.move 1
    let beyond := afterAll stuck [.advance, .skipBlanks, .word]
    (begun.pos = 1 ∧ next begun = .error ⟨'.', 1⟩ stuck ∧ next stuck = .error ⟨'.', 1⟩ stuck) ∧
    beyond.pos = 5 ∧ next beyond = .ok ⟨.endOfInput, "", 2⟩ beyond ∧
      ∀ more, next (afterAll beyond more) = .ok ⟨.endOfInput, "", 2⟩ (afterAll beyond more) := by
  intro begun stuck beyond
  have failed : next begun = .error ⟨'.', 1⟩ stuck := rfl
  have place : beyond = ⟨"7 .\n".toList, [], 5, 2⟩ := rfl
  have read : next beyond = .ok ⟨.endOfInput, "", 2⟩ beyond := by
    rw [place]
    rfl
  obtain ⟨-, -, -, -, -, -, -, -, failing⟩ := cursor_stays_consistent "7 .\n" [.next]
  obtain ⟨-, -, -, -, -, -, -, ending, -⟩ :=
    cursor_stays_consistent "7 .\n" [.next, .next, .advance, .skipBlanks, .word]
  exact ⟨⟨rfl, failed, (failing _ _ failed).2.2⟩, rfl, read, (ending _ _ read rfl).2⟩

end Scan

end Scriptlet
