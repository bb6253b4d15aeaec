import Scriptlet.Parsing.Phrase
import Scriptlet.Proofs.Parsing.Stream

/-! How deep the parser calls itself. Between two calls for the same phrase it reads a token, so a depth
of some levels for each token is never used up. -/
namespace Scriptlet

open Scriptlet.Action

/-- The errors by which the depth limit shows. -/
def ParseError.isTooDeep : ParseError → Bool
  | .nestedTooDeeply _ | .depthExceeded => true
  | .expected .. | .invalidTarget _ | .notNumber _ => false

theorem Stream.Terminated.size_next {stream : Stream} (terminated : stream.Terminated)
    (real : stream.current.kind ≠ .endOfInput) : stream.next.size + 1 = stream.size := by
  rw [← stream.length_remaining, remaining_next terminated real]
  rfl

namespace Parse

/-- An outcome that is not due to the depth limit. If it is a result, then the parser has not gone back,
and with `takes` it has read a token. -/
def Advances (takes : Bool) (stream : Stream) : EStateM.Result ParseError Stream α → Prop
  | .ok _ after => after.Terminated ∧ after.size + takes.toNat ≤ stream.size
  | .error error _ => error.isTooDeep = false

/-- What an action does from places with at most `room` tokens. -/
def Fits (takes : Bool) (room : Nat) (action : Parse α) : Prop :=
  ∀ stream : Stream, stream.Terminated → stream.size ≤ room → Advances takes stream (action stream)

variable {takes takes' : Bool} {room less : Nat} {stream : Stream}

theorem Advances.weaken {outcome : EStateM.Result ParseError Stream α}
    (advances : Advances takes stream outcome) (taking : takes' → takes) :
    Advances takes' stream outcome := by
  cases outcome with
  | error error reached => exact advances
  | ok value after =>
    have fewer : takes'.toNat ≤ takes.toNat := by cases takes' <;> simp_all
    exact ⟨advances.1, Nat.le_trans (Nat.add_le_add_left fewer _) advances.2⟩

theorem Advances.bind {action : Parse α} {rest : α → Parse β}
    (began : Advances takes stream (action stream))
    (second : ∀ value after, action stream = .ok value after → after.Terminated →
      after.size + takes.toNat ≤ stream.size → Advances takes' after (rest value after)) :
    Advances (takes || takes') stream ((action >>= rest) stream) := by
  rw [bind_run]
  cases outcome : action stream with
  | error error reached =>
    rw [outcome] at began
    exact began
  | ok value middle =>
    rw [outcome] at began
    have went := second value middle outcome began.1 began.2
    dsimp only
    cases ended : rest value middle with
    | error error reached =>
      rw [ended] at went
      exact went
    | ok result after =>
      rw [ended] at went
      have first := began.2
      have last := went.2
      have most : (takes || takes').toNat ≤ takes.toNat + takes'.toNat := by cases takes <;> simp
      exact ⟨went.1, by omega⟩

section

variable {action : Parse α} {rest : α → Parse β}

theorem Fits.relaxed (fits : Fits takes room action) : Fits false room action :=
  fun stream terminated roomy => (fits stream terminated roomy).weaken (by simp)

theorem Fits.bind (first : Fits takes room action) (second : ∀ value, Fits takes' less (rest value))
    (enough : room ≤ less + takes.toNat) : Fits (takes || takes') room (action >>= rest) := by
  intro stream terminated roomy
  refine (first stream terminated roomy).bind fun value after _ terminated further => ?_
  exact second value after terminated (by omega)

/-- After a first part that takes a token there is less room. -/
theorem Fits.after (first : Fits true (room + 1) action) (second : ∀ value, Fits false room (rest value)) :
    Fits true (room + 1) (action >>= rest) :=
  first.bind second (Nat.le_refl _)

theorem Fits.before (first : Fits takes room action) (second : ∀ value, Fits takes' room (rest value)) :
    Fits takes' room (action >>= rest) := by
  have both := first.bind second (Nat.le_add_right _ _)
  exact fun stream terminated roomy => (both stream terminated roomy).weaken (by simp +contextual)

theorem Fits.pure {value : α} : Fits false room (pure value) :=
  fun _ terminated _ => ⟨terminated, Nat.le_refl _⟩

theorem Fits.throw {error : ParseError} (shallow : error.isTooDeep = false) :
    Fits takes room (throw error : Parse α) :=
  fun _ _ _ => shallow

end

theorem current_fits : Fits false room current :=
  fun _ terminated _ => ⟨terminated, Nat.le_refl _⟩

theorem check_fits (kind : Kind) : Fits false room (check kind) :=
  fun _ terminated _ => ⟨terminated, Nat.le_refl _⟩

theorem noteFunction_fits (name : String) (arity : Nat) : Fits false room (noteFunction name arity) :=
  fun _ terminated _ => ⟨terminated, Nat.le_refl _⟩

theorem advances_next {value : α} (terminated : stream.Terminated)
    (real : stream.current.kind ≠ .endOfInput) : Advances true stream (.ok value stream.next) :=
  ⟨(terminated.consumes real).terminated, Nat.le_of_eq (terminated.size_next real)⟩

theorem expect_fits {kind : Kind} (real : kind ≠ .endOfInput) (message : String) :
    Fits true room (expect kind message) := by
  intro stream terminated _
  rw [expect_run]
  split
  · rename_i same
    exact advances_next terminated (same ▸ real)
  · exact rfl

/-- What follows has less room, since a token was read. -/
theorem Advances.read {action : Parse α} {rest : α → Parse β} {value : α}
    (success : action stream = .ok value stream.next) (terminated : stream.Terminated)
    (real : stream.current.kind ≠ .endOfInput) (roomy : stream.size ≤ room + 1)
    (second : Fits false room (rest value)) : Advances true stream ((action >>= rest) stream) := by
  have began : Advances true stream (action stream) := by
    rw [success]
    exact advances_next terminated real
  have goes : ∀ found after, action stream = .ok found after → after.Terminated →
      after.size + 1 ≤ stream.size → Advances false after (rest found after) := by
    intro found after ended terminated further
    rw [success] at ended
    cases ended
    exact second _ terminated (by omega)
  exact began.bind goes

theorem Fits.accept {kinds : List Kind} {rest : Option Token → Parse β} (real : Kind.endOfInput ∉ kinds)
    (present : ∀ token, Fits false less (rest (some token))) (absent : Fits takes room (rest none))
    (enough : room ≤ less + 1) : Fits takes room (accept kinds >>= rest) := by
  intro stream terminated roomy
  have ran := accept_run kinds stream
  split at ran
  · rename_i listed
    have reads := Advances.read ran terminated (fun ended => real (ended ▸ listed))
      (Nat.le_trans roomy enough) (present _)
    exact reads.weaken (by simp)
  · rw [bind_of_ok _ ran]
    exact absent stream terminated roomy

end Parse

namespace Phrase

open Parse

/-- How many phrases can be opened one inside the other, from this one inwards, before a token is read. -/
def level : Phrase → Nat
  | .declaration => 12
  | .statement => 11
  | .expressionStatement => 10
  | .expression => 9
  | .assignment => 8
  | .equality => 7
  | .comparison => 6
  | .term => 5
  | .factor => 4
  | .unary => 3
  | .call => 2
  | .primary => 1
  | _ => 0

theorem level_lt (phrase : Phrase) : level phrase < 13 := by
  cases phrase <;> decide

theorem moreParams_fits (found : Array String) (turns : Nat) : Fits false room (moreParams found turns) := by
  induction turns generalizing found with
  | zero => exact .pure
  | succ turns ih =>
    refine .accept (by simp) (fun comma => ?_) .pure (Nat.le_succ room)
    exact .before (expect_fits (by simp) _) fun name => ih _

theorem params_fits (turns : Nat) : Fits false room (params turns) := by
  refine .before (check_fits _) fun closed => ?_
  split
  · exact .pure
  · exact .before (expect_fits (by simp) _) fun first => moreParams_fits _ turns

section Later

variable {parse : Phrase → Parse Node} {room turns : Nat} (later : ∀ inner, Fits true room (parse inner))
include later

theorem declarations_fits (found : Array Node) : Fits false room (declarations parse found turns) := by
  induction turns generalizing found with
  | zero => exact .pure
  | succ turns ih =>
    refine .before (check_fits _) fun closes => .before (check_fits _) fun ends => ?_
    split
    · exact .pure
    · exact .before (later _) fun node => ih _

theorem chainRest_fits {operators : List Kind} (real : Kind.endOfInput ∉ operators) (operand : Phrase)
    (left : Node) : Fits false room (chainRest parse operand operators left turns) := by
  induction turns generalizing left with
  | zero => exact .pure
  | succ turns ih =>
    refine .accept real (fun operator => ?_) .pure (Nat.le_succ room)
    exact .before (later _) fun right => ih _

theorem moreArguments_fits (found : Array Node) : Fits false room (moreArguments parse found turns) := by
  induction turns generalizing found with
  | zero => exact .pure
  | succ turns ih =>
    refine .accept (by simp) (fun comma => ?_) .pure (Nat.le_succ room)
    exact .before (later _) fun node => ih _

theorem arguments_fits : Fits false room (arguments parse turns) := by
  refine .before (check_fits _) fun closed => ?_
  split
  · exact .pure
  · exact .before (later _) fun first => moreArguments_fits later _

theorem callRest_fits (limit : Nat) (callee : Node) :
    Fits false room (callRest parse limit callee turns) := by
  induction turns generalizing callee with
  | zero => exact .pure
  | succ turns ih =>
    refine .accept (by simp) (fun opener => ?_) .pure (Nat.le_succ room)
    exact .before (arguments_fits later) fun given => .before (expect_fits (by simp) _) fun _ => ih _

theorem arm_fits : Fits true room (arm parse) :=
  .before (expect_fits (by simp) _) fun keyword => .before (later _) fun pattern =>
    .before (expect_fits (by simp) _) fun _ => .bind (later _) (fun body => .pure) (Nat.le_add_right _ _)

theorem arms_fits (found : Array Node) : Fits false room (arms parse found turns) := by
  induction turns generalizing found with
  | zero => exact .pure
  | succ turns ih =>
    refine .before (check_fits _) fun closed => ?_
    split
    · exact .pure
    · exact .before (arm_fits later) fun next =>
        .accept (by simp) (fun comma => ih _) .pure (Nat.le_succ room)

theorem expressionUnless_fits (stop : Kind) : Fits false room (expressionUnless parse stop) := by
  refine .before (check_fits _) fun stops => ?_
  split
  · exact .pure
  · exact (later _).relaxed

theorem forInitializer_fits : Fits false room (forInitializer parse) := by
  refine .accept (by simp) (fun semicolon => .pure) ?_ (Nat.le_succ room)
  refine .before (check_fits _) fun isVar => ?_
  split <;> exact (later _).relaxed

theorem variableDeclarationBody_fits : Fits true (room + 1) (variableDeclarationBody parse) := by
  refine .after (expect_fits (by simp) _) fun keyword => .before (expect_fits (by simp) _) fun name =>
    .accept (by simp) (fun equals => ?_) ?_ (Nat.le_succ room)
  · exact .before (later _) fun initializer => .before (expect_fits (by simp) _) fun _ => .pure
  · exact .before .pure fun initializer => .before (expect_fits (by simp) _) fun _ => .pure

theorem functionDeclarationBody_fits : Fits true (room + 1) (functionDeclarationBody parse turns) :=
  .after (expect_fits (by simp) _) fun keyword => .before (expect_fits (by simp) _) fun name =>
    .before (expect_fits (by simp) _) fun _ => .before (params_fits turns) fun names =>
    .before (expect_fits (by simp) _) fun _ => .before (later _) fun body =>
    .before (noteFunction_fits _ _) fun _ => .pure

theorem printStatementBody_fits : Fits true (room + 1) (printStatementBody parse) :=
  .after (expect_fits (by simp) _) fun keyword => .before (later _) fun expression =>
    .before (expect_fits (by simp) _) fun _ => .pure

theorem ifStatementBody_fits : Fits true (room + 1) (ifStatementBody parse) := by
  refine .after (expect_fits (by simp) _) fun keyword => .before (expect_fits (by simp) _) fun _ =>
    .before (later _) fun condition => .before (expect_fits (by simp) _) fun _ =>
    .before (later _) fun branch => .accept (by simp) (fun divider => ?_) .pure (Nat.le_succ room)
  exact .before (later _) fun other => .pure

theorem whileStatementBody_fits : Fits true (room + 1) (whileStatementBody parse) :=
  .after (expect_fits (by simp) _) fun keyword => .before (expect_fits (by simp) _) fun _ =>
    .before (later _) fun condition => .before (expect_fits (by simp) _) fun _ =>
    .before (later _) fun body => .pure

theorem forStatementBody_fits : Fits true (room + 1) (forStatementBody parse) :=
  .after (expect_fits (by simp) _) fun keyword => .before (expect_fits (by simp) _) fun _ =>
    .before (forInitializer_fits later) fun initializer =>
    .before (expressionUnless_fits later _) fun condition => .before (expect_fits (by simp) _) fun _ =>
    .before (expressionUnless_fits later _) fun increment => .before (expect_fits (by simp) _) fun _ =>
    .before (later _) fun body => .pure

theorem returnStatementBody_fits : Fits true (room + 1) (returnStatementBody parse) :=
  .after (expect_fits (by simp) _) fun keyword => .before (expressionUnless_fits later _) fun value =>
    .before (expect_fits (by simp) _) fun _ => .pure

theorem blockBody_fits : Fits true (room + 1) (blockBody parse turns) :=
  .after (expect_fits (by simp) _) fun brace => .before (declarations_fits later #[]) fun statements =>
    .before (expect_fits (by simp) _) fun _ => .pure

theorem matchingBody_fits : Fits true (room + 1) (matchingBody parse turns) :=
  .after (expect_fits (by simp) _) fun keyword => .before (later _) fun subject =>
    .before (expect_fits (by simp) _) fun _ => .before (arms_fits later #[]) fun found =>
    .before (expect_fits (by simp) _) fun _ => .pure

theorem assignmentBody_fits (first : Fits true (room + 1) (parse .equality)) :
    Fits true (room + 1) (assignmentBody parse) := by
  refine .after first fun target => .accept (by simp) (fun equals => ?_) .pure (Nat.le_succ room)
  refine .before (later _) fun value => ?_
  cases target with
  | reference line name => exact .pure
  | _ => exact .throw rfl

theorem chain_fits {operand : Phrase} {operators : List Kind} (first : Fits true (room + 1) (parse operand))
    (real : Kind.endOfInput ∉ operators) : Fits true (room + 1) (chain parse operand operators turns) :=
  .after first fun left => chainRest_fits later real operand left

theorem unaryBody_fits (first : Fits true (room + 1) (parse .call)) :
    Fits true (room + 1) (unaryBody parse) := by
  refine .accept (by simp) (fun operator => ?_) first (Nat.le_refl _)
  exact .before (later _) fun operand => .pure

theorem callBody_fits (first : Fits true (room + 1) (parse .primary)) :
    Fits true (room + 1) (callBody parse turns) :=
  .after first fun callee => callRest_fits later turns callee

/-- The current token is read only where it is known not to be the end of the input. -/
theorem primaryBody_fits (first : Fits true (room + 1) (parse .matching)) :
    Fits true (room + 1) (primaryBody parse) := by
  intro stream terminated roomy
  rw [primaryBody, bind_of_ok _ (current_run stream)]
  have reads : stream.current.kind ≠ .endOfInput → ∀ {rest : Token → Parse Node},
      (∀ token, Fits false room (rest token)) → Advances true stream ((advance >>= rest) stream) :=
    fun real _ second => .read (advance_run stream) terminated real roomy (second _)
  generalize stream.current.kind = kind at reads
  split
  case h_1 =>
    refine reads (by simp) fun _ => ?_
    split
    · exact .pure
    · exact .throw rfl
  case h_6 =>
    exact reads (by simp) fun _ => .before (later _) fun _ => .before (expect_fits (by simp) _) fun _ =>
      .pure
  case h_7 => exact first stream terminated roomy
  case h_8 => exact rfl
  all_goals exact reads (by simp) fun _ => .pure

end Later

/-- A phrase opens phrases of lower levels at once, and any phrases after a token. -/
theorem body_fits {parse : Phrase → Parse Node} {phrase : Phrase} {room : Nat} (turns : Nat)
    (same : ∀ inner, level inner < level phrase → Fits true (room + 1) (parse inner))
    (later : ∀ inner, Fits true room (parse inner)) : Fits true (room + 1) (body parse turns phrase) := by
  cases phrase with
  | declaration | statement =>
    refine .before current_fits fun token => ?_
    generalize token.kind = kind
    split <;> exact same _ (by decide)
  | variableDeclaration => exact variableDeclarationBody_fits later
  | functionDeclaration => exact functionDeclarationBody_fits later
  | printStatement => exact printStatementBody_fits later
  | ifStatement => exact ifStatementBody_fits later
  | whileStatement => exact whileStatementBody_fits later
  | forStatement => exact forStatementBody_fits later
  | returnStatement => exact returnStatementBody_fits later
  | block => exact blockBody_fits later
  | expressionStatement =>
    exact .before current_fits fun token => .after (same .expression (by decide)) fun expression =>
      .before (expect_fits (by simp) _) fun _ => .pure
  | expression => exact same .assignment (by decide)
  | assignment => exact assignmentBody_fits later (same .equality (by decide))
  | equality | comparison | term | factor => exact chain_fits later (same _ (by decide)) (by simp)
  | unary => exact unaryBody_fits later (same .call (by decide))
  | call => exact callBody_fits later (same .primary (by decide))
  | primary => exact primaryBody_fits later (same .matching (by decide))
  | matching => exact matchingBody_fits later

/-- Where the depth is enough for each token and for the phrase itself, it is not used up. -/
theorem parseWithin_fits (turns : Nat) {depth room : Nat} {phrase : Phrase}
    (enough : 13 * room + level phrase ≤ depth) : Fits true room (parseWithin turns depth phrase) := by
  induction depth generalizing phrase room with
  | zero =>
    intro stream _ roomy
    have some : 0 < stream.size := Nat.succ_pos _
    omega
  | succ depth ih =>
    cases room with
    | zero => exact fun stream _ roomy => absurd roomy (Nat.not_succ_le_zero _)
    | succ room =>
      refine body_fits turns (fun inner lower => ih (by omega)) fun inner => ih ?_
      have := level_lt inner
      omega

end Phrase

namespace Parse

theorem topLevel_fits (turns : Nat) {depth room : Nat} (enough : 13 * room + 12 ≤ depth) :
    Fits true room (topLevel turns depth) := by
  intro stream terminated roomy
  have fits : Fits true room (Phrase.declaration.parseWithin turns depth) :=
    Phrase.parseWithin_fits turns enough
  have advances := fits stream terminated roomy
  unfold topLevel
  split
  · rename_i failed
    rw [failed] at advances
    exact absurd advances (by simp [Advances, ParseError.isTooDeep])
  · exact advances

theorem programFrom_fits (limit : Nat) {depth room : Nat} (enough : 13 * room + 12 ≤ depth)
    (found : Array Node) (turns : Nat) : Fits false room (programFrom limit depth found turns) := by
  induction turns generalizing found with
  | zero => exact .pure
  | succ turns ih =>
    refine .before (check_fits _) fun ended => ?_
    split
    · exact .pure
    · exact .before (topLevel_fits limit enough) fun node => ih _

end Parse

end Scriptlet
