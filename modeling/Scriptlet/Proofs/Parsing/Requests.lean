import Mathlib
import Scriptlet.Proofs.Parsing.Joining
import Scriptlet.Proofs.Parsing.Recursion

/-! A parser that is asked for anything in any order, over any list of tokens. It stays at the tokens up to
the first end of the input, of which each phrase that it reads takes some, and never sees what comes after
them. -/
namespace Scriptlet

open Scriptlet.Action Parse

theorem ParseError.mapLine_self (error : ParseError) : error.mapLine (fun line => line) = error := by
  cases error <;> rfl

namespace Stream

/-- The tokens up to the first end of the input. -/
def upToEnd : List Token → List Token
  | [] => []
  | token :: tokens => if token.kind = .endOfInput then [token] else token :: upToEnd tokens

theorem upToEnd_append {body : List Token} {last : Token} (real : ∀ token ∈ body, token.kind ≠ .endOfInput)
    (ended : last.kind = .endOfInput) (tail : List Token) :
    upToEnd (body ++ last :: tail) = body ++ [last] := by
  induction body with
  | nil => simp [upToEnd, ended]
  | cons token body ih =>
    obtain ⟨first, others⟩ := List.forall_mem_cons.mp real
    simp [upToEnd, first, ih others]

theorem exists_first_end {tokens : List Token} (some : ∃ token ∈ tokens, token.kind = .endOfInput) :
    ∃ body last tail, tokens = body ++ last :: tail ∧ (∀ token ∈ body, token.kind ≠ .endOfInput) ∧
      last.kind = .endOfInput := by
  induction tokens with
  | nil => simp at some
  | cons token tokens ih =>
    by_cases ended : token.kind = .endOfInput
    · exact ⟨[], token, tokens, rfl, by simp, ended⟩
    · obtain ⟨body, last, tail, rfl, real, isEnd⟩ := ih (by simpa [ended] using some)
      exact ⟨token :: body, last, tail, rfl, by simpa [ended] using real, isEnd⟩

end Stream

namespace Parse

/-- The stream reads `body ++ last :: tail`, and it is at one of the tokens up to `last`. -/
structure Stands (body : List Token) (last : Token) (tail : List Token) (stream : Stream) : Prop where
  pos : stream.pos ≤ body.length
  remaining : stream.remaining = body.drop stream.pos ++ last :: tail
  terminated : stream.Terminated

namespace Stands

variable {body tail : List Token} {last : Token} {stream : Stream}

theorem remaining_drop (stands : Stands body last tail stream) :
    stream.remaining = (body ++ last :: tail).drop stream.pos := by
  rw [stands.remaining, List.drop_append_of_le_length stands.pos]

theorem getElem? (stands : Stands body last tail stream) :
    (body ++ last :: tail)[stream.pos]? = some stream.current := by
  rw [← List.head?_drop, ← stands.remaining_drop]
  rfl

theorem ahead (stands : Stands body last tail stream) :
    stream.ahead = (body ++ last :: tail).drop (stream.pos + 1) := by
  rw [← List.tail_drop, ← stands.remaining_drop]
  rfl

/-- The current token does not depend on what comes after the first end of the input. -/
theorem current (stands : Stands body last tail stream) :
    (body ++ [last])[stream.pos]? = some stream.current := by
  have within : stream.pos < (body ++ [last]).length := by simpa using Nat.lt_succ_of_le stands.pos
  have here := stands.getElem?
  rwa [List.append_cons, List.getElem?_append_left within] at here

theorem next (stands : Stands body last tail stream) (ended : last.kind = .endOfInput) :
    Stands body last tail stream.next := by
  by_cases real : stream.current.kind = .endOfInput
  · have same : stream.next = stream := if_pos real
    rwa [same]
  · have consumes := stands.terminated.consumes real
    have counted := Stream.pos_next stands.terminated real
    have before : stream.pos < body.length := by
      refine Nat.lt_of_le_of_ne stands.pos fun atEnd => real ?_
      have here := stands.current
      rw [atEnd, List.getElem?_concat_length] at here
      rwa [← Option.some.inj here]
    refine ⟨by omega, ?_, consumes.terminated⟩
    have split := consumes.remaining
    rw [stands.remaining, List.drop_eq_getElem_cons before] at split
    rw [counted, ← (List.cons.inj split).2]
    rfl

/-- After some of the tokens up to the first end of the input the stream is at a later one. -/
theorem onward {after : Stream} {read : List Token} (stands : Stands body last tail stream)
    (split : stream.remaining = read ++ after.remaining) (counted : after.pos = stream.pos + read.length)
    (within : after.pos ≤ body.length) : Stands body last tail after := by
  refine ⟨within, ?_, stands.terminated.of_suffix split⟩
  have room : read.length ≤ (body.drop stream.pos).length := by
    rw [List.length_drop]
    omega
  have left := congrArg (List.drop read.length) split
  rw [List.drop_left, stands.remaining, List.drop_append_of_le_length room, List.drop_drop] at left
  rw [← left, counted]

end Stands

/-- Two streams at the same token, the first of which has nothing after the first end of the input. -/
structure Beside (body : List Token) (last : Token) (tail : List Token) (short long : Stream) : Prop where
  cut : Stands body last [] short
  whole : Stands body last tail long
  pos : long.pos = short.pos

namespace Beside

variable {body tail : List Token} {last : Token} {short long : Stream}

theorem current (beside : Beside body last tail short long) : long.current = short.current := by
  have here := beside.whole.current
  rw [beside.pos, beside.cut.current] at here
  exact (Option.some.inj here).symm

theorem remaining (beside : Beside body last tail short long) :
    long.remaining = short.remaining ++ tail := by
  rw [beside.whole.remaining, beside.cut.remaining, beside.pos, List.append_assoc]
  rfl

theorem next (beside : Beside body last tail short long) (ended : last.kind = .endOfInput) :
    Beside body last tail short.next long.next := by
  refine ⟨beside.cut.next ended, beside.whole.next ended, ?_⟩
  by_cases real : short.current.kind = .endOfInput
  · rw [Stream.next, Stream.next, beside.current, if_pos real, if_pos real]
    exact beside.pos
  · have realToo : long.current.kind ≠ .endOfInput := by rwa [beside.current]
    rw [Stream.pos_next beside.cut.terminated real, Stream.pos_next beside.whole.terminated realToo,
      beside.pos]

end Beside

/-- The result or the error of an action, without the state in which it ended. -/
def answer : EStateM.Result ε σ α → Except ε α
  | .ok value _ => .ok value
  | .error error _ => .error error

/-- An outcome as it shows: its answer, and the position after it. -/
def shown (outcome : EStateM.Result ParseError Stream α) : Except ParseError α × Nat :=
  (answer outcome, (final outcome).pos)

/-- What a parser can be asked for. -/
inductive Request where
  | advance
  | check (kind : Kind)
  | accept (kinds : List Kind)
  | expect (kind : Kind) (message : String)
  | phrase (phrase : Phrase)
  | program

inductive Answer where
  | token (token : Token)
  | flag (holds : Bool)
  | found (token : Option Token)
  | node (node : Node)
  | nodes (nodes : List Node)

def Request.run (depth : Nat) : Request → Parse Answer
  | .advance => .token <$> Parse.advance
  | .check kind => .flag <$> Parse.check kind
  | .accept kinds => .found <$> Parse.accept kinds
  | .expect kind message => .token <$> Parse.expect kind message
  | .phrase wanted => .node <$> Parse.phrase depth wanted
  | .program => .nodes <$> Parse.program depth

/-- The answers to a row of requests, errors included, and where the parser stands after them. -/
def runAll (depth : Nat) : List Request → Stream → List (Except ParseError Answer) × Stream
  | [], stream => ([], stream)
  | request :: requests, stream =>
    let outcome := request.run depth stream
    let (answers, last) := runAll depth requests (final outcome)
    (answer outcome :: answers, last)

variable {body tail : List Token} {last : Token} {short long : Stream}

/-- Two outcomes with the same answer, after which the two streams are at the same token again. -/
def Alike (body : List Token) (last : Token) (tail : List Token)
    (first second : EStateM.Result ParseError Stream α) : Prop :=
  answer second = answer first ∧ Beside body last tail (final first) (final second)

theorem Alike.shown_eq {first second third : EStateM.Result ParseError Stream α}
    (alike : Alike body last tail first second) (alikeToo : Alike body last tail first third) :
    shown second = shown third := by
  rw [shown, shown, alike.1, alikeToo.1, alike.2.pos, alikeToo.2.pos]

theorem answer_map (convert : α → β) (action : Parse α) (stream : Stream) :
    answer ((convert <$> action) stream) = (answer (action stream)).map convert := by
  rw [map_eq_pure_bind, bind_run]
  cases action stream <;> rfl

theorem final_map (convert : α → β) (action : Parse α) (stream : Stream) :
    final ((convert <$> action) stream) = final (action stream) := by
  rw [map_eq_pure_bind, bind_run]
  cases action stream <;> rfl

theorem Alike.map {first second : Parse α} (alike : Alike body last tail (first short) (second long))
    (convert : α → β) : Alike body last tail ((convert <$> first) short) ((convert <$> second) long) := by
  obtain ⟨same, beside⟩ := alike
  refine ⟨?_, ?_⟩
  · rw [answer_map, answer_map, same]
  · rwa [final_map, final_map]

/-- The tokens that an action has read are counted, however it ends. -/
def Counts (action : Parse α) : Prop :=
  ∀ stream : Stream, stream.Terminated → ∃ read,
    stream.remaining = read ++ (final (action stream)).remaining ∧
      (final (action stream)).pos = stream.pos + read.length

theorem counts_of_copies {fork : Fork} {peeks takes : Bool} {room : Nat} {convert : α → β}
    {first : Parse α} {second : Parse β} (copies : fork.Copies peeks takes room convert first second) :
    Counts first := by
  intro stream terminated
  obtain ⟨read, split, counted, -⟩ := (copies stream terminated).onward
  exact ⟨read, split, counted⟩

/-- One text ends at the first end of the input, and the other one goes on. -/
def beyond (tail : List Token) (more : Nat) : Fork :=
  ⟨fun line => line, [], tail, more⟩

theorem agree_of_twins {more : Nat} {convert : α → α} {span : List Token}
    {first second : EStateM.Result ParseError Stream α} (same : ∀ value, convert value = value)
    (twins : (beyond tail more).Twins convert span first second) :
    answer second = answer first ∧ (final second).remaining = span ++ tail := by
  have plain : span.map (·.mapLine (beyond tail more).change) = span := List.map_id span
  cases first <;> cases second
  case ok.ok value _ value' _ =>
    obtain ⟨rfl, there, -⟩ := twins
    rw [plain] at there
    exact ⟨congrArg Except.ok (same value), there⟩
  case error.error error _ error' _ =>
    obtain ⟨rfl, there, -⟩ := twins
    rw [plain] at there
    exact ⟨congrArg Except.error error.mapLine_self, there⟩
  all_goals exact absurd twins id

/-- An action that reads the two texts in the same way leaves them at the same token. -/
theorem alike_of_copies {more : Nat} {takes : Bool} {convert : α → α} {first second : Parse α}
    (copies : (beyond tail more).Copies true takes short.size convert first second)
    (counts : Counts second) (same : ∀ value, convert value = value)
    (beside : Beside body last tail short long) : Alike body last tail (first short) (second long) := by
  obtain ⟨read, split, counted⟩ := counts_of_copies copies short beside.cut.terminated
  obtain ⟨readToo, splitToo, countedToo⟩ := counts long beside.whole.terminated
  have there : (beyond tail more).There short.remaining long :=
    ⟨by simp [beyond, Token.mapLine, beside.remaining], beside.whole.terminated⟩
  have twins := (copies short beside.cut.terminated).copy short.remaining
    (final (first short)).remaining long (by simp [beyond]) (Nat.le_refl _) there (by simp [beyond])
    (.inl (List.cons_ne_nil _ _))
  obtain ⟨sameAnswer, arrived⟩ := agree_of_twins same twins
  obtain rfl : read = readToo := by
    rw [arrived, beside.remaining, split, List.append_assoc] at splitToo
    exact List.append_cancel_right splitToo
  have within : (final (first short)).pos ≤ body.length := by
    have count := congrArg List.length split
    rw [beside.cut.remaining] at count
    simp only [List.length_append, List.length_drop, List.length_cons, List.length_nil,
      Stream.remaining] at count
    have := beside.cut.pos
    omega
  have samePos : (final (second long)).pos = (final (first short)).pos := by
    rw [counted, countedToo, beside.pos]
  exact ⟨sameAnswer, beside.cut.onward split counted within,
    beside.whole.onward splitToo countedToo (samePos ▸ within), samePos⟩

theorem Beside.size (beside : Beside body last tail short long) :
    long.size = short.size + tail.length := by
  rw [← long.length_remaining, beside.remaining, List.length_append, short.length_remaining]

variable {depth : Nat}

/-- A phrase is read in the same way with any number of turns that allows for all tokens. -/
theorem parseWithin_alike (beside : Beside body last tail short long) (depth more : Nat) (wanted : Phrase) :
    Alike body last tail (wanted.parseWithin short.size depth short)
      (wanted.parseWithin (long.size + more) depth long) := by
  let fork := beyond tail (tail.length + more)
  have copies := fork.parseWithin_copies short.size depth wanted
  have turns : short.size + fork.more = long.size + more := by
    rw [beside.size, Nat.add_assoc]
    rfl
  rw [turns] at copies
  exact alike_of_copies (copies.weaken (by simp) id)
    (counts_of_copies (fork.parseWithin_copies (long.size + more) depth wanted)) Node.mapLines_self beside

theorem programFrom_alike (beside : Beside body last tail short long) (depth more : Nat) :
    Alike body last tail (programFrom short.size depth #[] short.size short)
      (programFrom (long.size + more) depth #[] (long.size + more) long) := by
  let fork := beyond tail (tail.length + more)
  have copies := fork.programFrom_copies short.size depth (Nat.le_refl _) #[]
  have turns : short.size + fork.more = long.size + more := by
    rw [beside.size, Nat.add_assoc]
    rfl
  rw [turns, Array.map_empty] at copies
  refine alike_of_copies copies
    (counts_of_copies (fork.programFrom_copies (long.size + more) depth (Nat.le_refl _) #[])) ?_ beside
  intro nodes
  rw [show Node.mapLines fork.change = id from funext Node.mapLines_self, Array.map_id]

theorem program_eq (depth : Nat) (stream : Stream) : program depth stream =
    (Array.toList <$> programFrom stream.size depth #[] stream.size) stream := rfl

/-- What comes after the first end of the input does not show in the answer to a request. -/
theorem request_alike (beside : Beside body last tail short long) (ended : last.kind = .endOfInput)
    (depth : Nat) (request : Request) :
    Alike body last tail (request.run depth short) (request.run depth long) := by
  have here := beside.current
  have next := beside.next ended
  cases request with
  | advance =>
    refine .map ?_ _
    exact ⟨congrArg Except.ok here, next⟩
  | check kind =>
    refine .map ⟨?_, beside⟩ _
    rw [check_run, check_run, here]
    rfl
  | accept kinds =>
    refine .map ?_ _
    rw [accept_run, accept_run, here]
    split
    · exact ⟨rfl, next⟩
    · exact ⟨rfl, beside⟩
  | expect kind message =>
    refine .map ?_ _
    rw [expect_run, expect_run, here]
    split
    · exact ⟨rfl, next⟩
    · exact ⟨rfl, beside⟩
  | phrase wanted => exact .map (parseWithin_alike beside depth 0 wanted) _
  | program =>
    refine .map ?_ _
    rw [program_eq, program_eq]
    exact .map (programFrom_alike beside depth 0) _

theorem runAll_alike (beside : Beside body last tail short long) (ended : last.kind = .endOfInput)
    (depth : Nat) (requests : List Request) :
    (runAll depth requests long).1 = (runAll depth requests short).1 ∧
      Beside body last tail (runAll depth requests short).2 (runAll depth requests long).2 := by
  induction requests generalizing short long with
  | nil => exact ⟨rfl, beside⟩
  | cons request requests ih =>
    obtain ⟨same, further⟩ := request_alike beside ended depth request
    obtain ⟨others, arrived⟩ := ih further
    exact ⟨congrArg₂ List.cons same others, arrived⟩

theorem Stands.ofTokens {tokens : List Token} (split : Stream.terminate tokens = body ++ last :: tail) :
    Stands body last tail (Stream.ofTokens tokens) := by
  have start := Stream.pos_ofTokens tokens
  refine ⟨by rw [start]; exact Nat.zero_le _, ?_, .ofTokens tokens⟩
  rw [start, Stream.remaining_terminate, split, List.drop_zero]

/-- A parser over any tokens, beside one over those up to the first end of the input. -/
theorem exists_beside (tokens : List Token) :
    ∃ body last tail, Stream.terminate tokens = body ++ last :: tail ∧
      (∀ token ∈ body, token.kind ≠ .endOfInput) ∧ last.kind = .endOfInput ∧
      Beside body last tail (Stream.ofTokens (Stream.upToEnd (Stream.terminate tokens)))
        (Stream.ofTokens tokens) := by
  obtain ⟨final, final?, isEnd⟩ := Option.map_eq_some_iff.mp (Stream.terminate_ended tokens)
  obtain ⟨body, last, tail, split, real, ended⟩ :=
    Stream.exists_first_end ⟨final, List.mem_of_getLast? final?, isEnd⟩
  have cut : Stream.upToEnd (Stream.terminate tokens) = body ++ [last] := by
    rw [split, Stream.upToEnd_append real ended]
  refine ⟨body, last, tail, split, real, ended, ?_, .ofTokens split, ?_⟩
  · rw [cut]
    exact .ofTokens (Stream.terminate_of_ended (by simp [ended]))
  · rw [Stream.pos_ofTokens, Stream.pos_ofTokens]

theorem Counts.map {action : Parse α} (counts : Counts action) (convert : α → β) :
    Counts (convert <$> action) := by
  intro stream terminated
  rw [final_map]
  exact counts stream terminated

theorem counts_next {stream : Stream} (terminated : stream.Terminated) :
    ∃ read, stream.remaining = read ++ stream.next.remaining ∧
      stream.next.pos = stream.pos + read.length := by
  by_cases real : stream.current.kind = .endOfInput
  · exact ⟨[], by simp [Stream.next, real]⟩
  · exact ⟨[stream.current], Stream.remaining_next terminated real, Stream.pos_next terminated real⟩

/-- No request goes back, and the position counts the tokens that are read. -/
theorem request_counts (depth : Nat) (request : Request) : Counts (request.run depth) := by
  cases request with
  | advance =>
    refine Counts.map (fun stream terminated => ?_) _
    exact counts_next terminated
  | check kind => exact Counts.map (fun _ _ => ⟨[], rfl, rfl⟩) _
  | accept kinds =>
    refine Counts.map (fun stream terminated => ?_) _
    rw [accept_run]
    split
    · exact counts_next terminated
    · exact ⟨[], rfl, rfl⟩
  | expect kind message =>
    refine Counts.map (fun stream terminated => ?_) _
    rw [expect_run]
    split
    · exact counts_next terminated
    · exact ⟨[], rfl, rfl⟩
  | phrase wanted =>
    refine Counts.map (fun stream terminated => ?_) _
    have copies := (beyond [] 0).parseWithin_copies stream.size depth wanted
    exact counts_of_copies copies stream terminated
  | program =>
    refine Counts.map (fun stream terminated => ?_) _
    rw [program_eq, final_map]
    have copies := (beyond [] 0).programFrom_copies stream.size depth (Nat.le_refl _) #[]
    exact counts_of_copies copies stream terminated

theorem Advances.shallow {takes : Bool} {stream : Stream} {outcome : EStateM.Result ParseError Stream α}
    (advances : Advances takes stream outcome) (failed : answer outcome = .error error) :
    error.isTooDeep = false := by
  cases outcome with
  | ok value after => cases failed
  | error found reached =>
    cases failed
    exact advances

theorem answer_of_map {convert : α → β} {action : Parse α} {stream : Stream}
    (failed : answer ((convert <$> action) stream) = .error error) :
    answer (action stream) = .error error := by
  rw [answer_map] at failed
  cases outcome : answer (action stream) with
  | ok value =>
    rw [outcome] at failed
    cases failed
  | error found =>
    rw [outcome] at failed
    cases failed
    rfl

/-- With some depth for each token that is left, no request is stopped by the depth limit. -/
theorem request_shallow {stream : Stream} (terminated : stream.Terminated)
    (enough : 13 * stream.size + 12 ≤ depth) (request : Request)
    (failed : answer (request.run depth stream) = .error error) : error.isTooDeep = false := by
  cases request with
  | advance => cases answer_of_map failed
  | check kind => cases answer_of_map failed
  | accept kinds =>
    have failed := answer_of_map failed
    rw [accept_run] at failed
    split at failed <;> cases failed
  | expect kind message =>
    have failed := answer_of_map failed
    rw [expect_run] at failed
    split at failed <;> cases failed
    rfl
  | phrase wanted =>
    have level := Phrase.level_lt wanted
    have fits : Fits true stream.size (wanted.parseWithin stream.size depth) :=
      Phrase.parseWithin_fits _ (by omega)
    exact (fits stream terminated (Nat.le_refl _)).shallow (answer_of_map failed)
  | program =>
    have failed := answer_of_map failed
    rw [program_eq] at failed
    exact (programFrom_fits _ enough #[] _ stream terminated (Nat.le_refl _)).shallow
      (answer_of_map failed)

/-- What holds of a parser over the stored tokens, whatever it was asked for before. -/
structure Safe (depth : Nat) (stored : List Token) (stream : Stream) : Prop where
  /-- It is at a token, and at the first end of the input at the latest. -/
  current : (Stream.upToEnd stored)[stream.pos]? = some stream.current
  /-- Positions only grow, so it has never moved on where there was no token to move on to. -/
  token : stored[stream.pos]? = some stream.current
  ahead : stream.ahead = stored.drop (stream.pos + 1)
  more : stream.current.kind ≠ .endOfInput → stream.pos + 1 < stored.length
  onward : ∀ request : Request, stream.pos ≤ (final (request.run depth stream)).pos
  /-- A phrase that is read takes tokens. -/
  progress : ∀ wanted node after, phrase depth wanted stream = .ok node after → stream.pos < after.pos
  finished : ∀ nodes after, program depth stream = .ok nodes after → after.current.kind = .endOfInput
  /-- No loop is cut off: more turns make no difference. -/
  turns : ∀ (wanted : Phrase) turns, stream.size ≤ turns →
    shown (wanted.parseWithin turns depth stream) = shown (phrase depth wanted stream)
  programTurns : ∀ turns, stream.size ≤ turns →
    shown ((Array.toList <$> programFrom turns depth #[] turns) stream) = shown (program depth stream)
  /-- Nor is the recursion, where the limit allows for the tokens that are left. -/
  shallow : ∀ (request : Request) deep error, 13 * stream.size + 12 ≤ deep →
    answer (request.run deep stream) = .error error → error.isTooDeep = false

theorem Stands.progress {stream after : Stream} {wanted : Phrase} {node : Node}
    (stands : Stands body last tail stream) (success : phrase depth wanted stream = .ok node after) :
    stream.pos < after.pos := by
  have inner : wanted.parseWithin stream.size depth stream = .ok node after := success
  obtain ⟨read, split, counted, some⟩ :=
    ((beyond [] 0).parseWithin_copies stream.size depth wanted stream stands.terminated).onward
  rw [inner] at counted some
  have taken := List.length_pos_iff.mpr (some rfl rfl)
  have counted : after.pos = stream.pos + read.length := counted
  omega

theorem Stands.finished {stream after : Stream} {nodes : List Node} (stands : Stands body last tail stream)
    (success : program depth stream = .ok nodes after) : after.current.kind = .endOfInput := by
  rw [program_eq, map_eq_pure_bind] at success
  obtain ⟨found, reached, success, ended⟩ := bind_eq_ok.mp success
  cases ended
  obtain ⟨-, -, -, -, atEnd⟩ :=
    Grammar.programFrom_sound stands.terminated success (Nat.le_of_eq stream.length_remaining)
  exact atEnd

theorem Beside.safe (beside : Beside body last tail short long) (ended : last.kind = .endOfInput)
    (real : ∀ token ∈ body, token.kind ≠ .endOfInput) (depth : Nat) :
    Safe depth (body ++ last :: tail) long where
  current := by
    rw [Stream.upToEnd_append real ended]
    exact beside.whole.current
  token := beside.whole.getElem?
  ahead := beside.whole.ahead
  more more := by
    have consumes := beside.whole.terminated.consumes more
    have split := consumes.remaining
    rw [beside.whole.remaining_drop] at split
    have count := congrArg List.length split
    simp only [List.length_drop, List.length_cons, Stream.remaining] at count
    omega
  onward request := by
    obtain ⟨read, -, counted⟩ := request_counts depth request long beside.whole.terminated
    rw [counted]
    exact Nat.le_add_right _ _
  progress _ _ _ success := beside.whole.progress success
  finished _ _ success := beside.whole.finished success
  turns wanted turns enough := by
    obtain ⟨more, rfl⟩ := Nat.exists_eq_add_of_le enough
    exact (parseWithin_alike beside depth more wanted).shown_eq (parseWithin_alike beside depth 0 wanted)
  programTurns turns enough := by
    obtain ⟨more, rfl⟩ := Nat.exists_eq_add_of_le enough
    rw [program_eq]
    exact ((programFrom_alike beside depth more).map _).shown_eq ((programFrom_alike beside depth 0).map _)
  shallow request deep error enough failed :=
    request_shallow beside.whole.terminated enough request failed

/-- Whatever tokens it is given and whatever it was asked for, a parser is safe. -/
theorem runAll_safe (depth : Nat) (tokens : List Token) (requests : List Request) :
    Safe depth (Stream.terminate tokens) (runAll depth requests (Stream.ofTokens tokens)).2 := by
  obtain ⟨body, last, tail, split, real, ended, beside⟩ := exists_beside tokens
  obtain ⟨-, arrived⟩ := runAll_alike beside ended depth requests
  rw [split]
  exact arrived.safe ended real depth

/-- Whatever tokens it is given and whatever it was asked for before, errors included, a parser is safe; and
its answers and its place are the same without the tokens after the first end of the input. -/
theorem requests_stay_safe (depth : Nat) (tokens : List Token) (requests : List Request) :
    let stored := Stream.terminate tokens
    let whole := runAll depth requests (Stream.ofTokens tokens)
    let cut := runAll depth requests (Stream.ofTokens (Stream.upToEnd stored))
    Safe depth stored whole.2 ∧
      whole.1 = cut.1 ∧ whole.2.pos = cut.2.pos ∧ whole.2.current = cut.2.current := by
  intro stored whole cut
  obtain ⟨body, last, tail, -, -, ended, beside⟩ := exists_beside tokens
  obtain ⟨same, arrived⟩ := runAll_alike beside ended depth requests
  exact ⟨runAll_safe depth tokens requests, same, arrived.pos, arrived.current⟩

/-- A minus sign is read before the operand is found missing. Then every request finds the end of the input
again, although `true` comes after it. -/
theorem requests_stay_safe_endInside :
    let tokens : List Token := [⟨.minus, "-", 1⟩, ⟨.endOfInput, "", 1⟩, ⟨.trueWord, "true", 2⟩]
    let requests : List Request :=
      [.phrase .unary, .advance, .accept [.endOfInput], .program, .phrase .primary]
    let missing : ParseError := .expected .expression ⟨.endOfInput, "", 1⟩ "Expected expression"
    let ran := runAll 4 requests (Stream.ofTokens tokens)
    ran.1 = [.error missing, .ok (.token ⟨.endOfInput, "", 1⟩), .ok (.found (some ⟨.endOfInput, "", 1⟩)),
      .ok (.nodes []), .error missing] ∧
    ran.2.pos = 1 ∧ Safe 4 (tokens ++ [⟨.endOfInput, "", 2⟩]) ran.2 := by
  intro tokens requests missing ran
  have safe := (requests_stay_safe 4 tokens requests).1
  refine ⟨?_, ?_, safe⟩
  · cbv
  · cbv

end Parse

end Scriptlet
