import Scriptlet.Parsing.Phrase
import Scriptlet.Proofs.Parsing.Stream

/-! How parsing can end. The depth limit only cuts it off: wherever it is not reached, a higher limit
gives the same result. And as long as all numeric tokens read as numbers, there is no other error than
those of a text that is no program. Every phrase is parsed through the parsers of its parts, so it is
enough that each procedure passes on what holds of its parts. -/
namespace Scriptlet

open Scriptlet.Action

/-- All numeric tokens that are left read as numbers. -/
def Stream.Readable (stream : Stream) : Prop :=
  ∀ token ∈ stream.remaining, token.kind = .number → (Number.read? token.lexeme).isSome

theorem Stream.Readable.next {stream : Stream} (readable : stream.Readable) :
    stream.next.Readable := by
  unfold Stream.next
  split
  · exact readable
  · split
    · exact readable
    · rename_i token ahead shape
      intro other member
      exact readable other (by simp only [Stream.remaining, shape] at member ⊢; simp [member])

/-- The errors of a text that is no program. -/
def ParseError.isSyntax : ParseError → Bool
  | .expected .. | .invalidTarget _ | .nestedTooDeeply _ => true
  | .notNumber _ | .depthExceeded => false

namespace Parse

/-- What is asked of the parser of a phrase, which the depth limit may cut off. -/
def phrases : Contract ParseError Stream where
  holds := Stream.Readable
  cut error := error = .depthExceeded
  allowed error := error.isSyntax ∨ error = .depthExceeded

/-- What is asked of the parser of a program, for which a text nests too deeply then. -/
def programs : Contract ParseError Stream where
  holds := Stream.Readable
  cut error := ∃ line, error = .nestedTooDeeply line
  allowed error := error.isSyntax

theorem current_meets : phrases.Meets
    (fun token => token.kind = .number → (Number.read? token.lexeme).isSome) current current :=
  .of_ends fun stream readable => ⟨readable stream.current (by simp [Stream.remaining]), readable⟩

theorem advance_meets : phrases.Meets anything advance advance :=
  .of_ends fun _ readable => ⟨trivial, readable.next⟩

theorem check_meets (contract : Contract ParseError Stream) (kind : Kind) :
    contract.Meets anything (check kind) (check kind) :=
  .of_ends fun _ readable => ⟨trivial, readable⟩

theorem accept_meets (kinds : List Kind) : phrases.Meets anything (accept kinds) (accept kinds) := by
  refine .of_ends fun stream readable => ?_
  rw [accept_run]
  split
  · exact ⟨trivial, readable.next⟩
  · exact ⟨trivial, readable⟩

theorem expect_meets (kind : Kind) (message : String) :
    phrases.Meets anything (expect kind message) (expect kind message) := by
  refine .of_ends fun stream readable => ?_
  rw [expect_run]
  split
  · exact ⟨trivial, readable.next⟩
  · exact ⟨.inl rfl, readable⟩

theorem noteFunction_meets (name : String) (arity : Nat) :
    phrases.Meets anything (noteFunction name arity) (noteFunction name arity) :=
  .of_ends fun _ readable => ⟨trivial, readable⟩

end Parse

namespace Phrase

open Parse Contract

section

variable {short long : Phrase → Parse Node} {found : Array Node} {turns : Nat}

/-- The parsers of all phrases are as they must be. -/
def Agree (short long : Phrase → Parse Node) : Prop :=
  ∀ phrase, phrases.Meets anything (short phrase) (long phrase)

theorem moreParams_meets (found : Array String) (turns : Nat) :
    phrases.Meets anything (moreParams found turns) (moreParams found turns) := by
  induction turns generalizing found with
  | zero => exact .pure trivial
  | succ turns ih =>
    refine .bind (accept_meets _) fun comma? _ => ?_
    cases comma? with
    | none => exact .pure trivial
    | some comma => exact .bind (expect_meets _ _) fun name _ => ih _

theorem params_meets (turns : Nat) : phrases.Meets anything (params turns) (params turns) := by
  refine .bind (check_meets _ _) fun closed _ => ?_
  split
  · exact .pure trivial
  · exact .bind (expect_meets _ _) fun _ _ => moreParams_meets _ _

theorem declarations_agree (agree : Agree short long) :
    phrases.Meets anything (declarations short found turns) (declarations long found turns) := by
  induction turns generalizing found with
  | zero => exact .pure trivial
  | succ turns ih =>
    refine .bind (check_meets _ _) fun _ _ => .bind (check_meets _ _) fun _ _ => ?_
    split
    · exact .pure trivial
    · exact .bind (agree _) fun _ _ => ih

theorem chainRest_agree {operators : List Kind} (agree : Agree short long) :
    phrases.Meets anything (chainRest short operand operators left turns)
      (chainRest long operand operators left turns) := by
  induction turns generalizing left with
  | zero => exact .pure trivial
  | succ turns ih =>
    refine .bind (accept_meets _) fun operator? _ => ?_
    cases operator? with
    | none => exact .pure trivial
    | some operator => exact .bind (agree _) fun _ _ => ih

theorem moreArguments_agree (agree : Agree short long) :
    phrases.Meets anything (moreArguments short found turns) (moreArguments long found turns) := by
  induction turns generalizing found with
  | zero => exact .pure trivial
  | succ turns ih =>
    refine .bind (accept_meets _) fun comma? _ => ?_
    cases comma? with
    | none => exact .pure trivial
    | some comma => exact .bind (agree _) fun _ _ => ih

theorem arguments_agree (agree : Agree short long) :
    phrases.Meets anything (arguments short turns) (arguments long turns) := by
  refine .bind (check_meets _ _) fun _ _ => ?_
  split
  · exact .pure trivial
  · exact .bind (agree _) fun _ _ => moreArguments_agree agree

theorem callRest_agree (agree : Agree short long) :
    phrases.Meets anything (callRest short limit callee turns) (callRest long limit callee turns) := by
  induction turns generalizing callee with
  | zero => exact .pure trivial
  | succ turns ih =>
    refine .bind (accept_meets _) fun opener? _ => ?_
    cases opener? with
    | none => exact .pure trivial
    | some opener =>
      exact .bind (arguments_agree agree) fun _ _ => .bind (expect_meets _ _) fun _ _ => ih

theorem arm_agree (agree : Agree short long) : phrases.Meets anything (arm short) (arm long) :=
  .bind (expect_meets _ _) fun _ _ => .bind (agree _) fun _ _ =>
    .bind (expect_meets _ _) fun _ _ => .bind (agree _) fun _ _ => .pure trivial

theorem arms_agree (agree : Agree short long) :
    phrases.Meets anything (arms short found turns) (arms long found turns) := by
  induction turns generalizing found with
  | zero => exact .pure trivial
  | succ turns ih =>
    refine .bind (check_meets _ _) fun _ _ => ?_
    split
    · exact .pure trivial
    · refine .bind (arm_agree agree) fun _ _ => .bind (accept_meets _) fun comma? _ => ?_
      cases comma? with
      | none => exact .pure trivial
      | some comma => exact ih

theorem expressionUnless_agree (agree : Agree short long) :
    phrases.Meets anything (expressionUnless short stop) (expressionUnless long stop) := by
  refine .bind (check_meets _ _) fun _ _ => ?_
  split
  · exact .pure trivial
  · exact agree _

theorem forInitializer_agree (agree : Agree short long) :
    phrases.Meets anything (forInitializer short) (forInitializer long) := by
  refine .bind (accept_meets _) fun semicolon? _ => ?_
  cases semicolon? with
  | some semicolon => exact .pure trivial
  | none =>
    refine .bind (check_meets _ _) fun _ _ => ?_
    split <;> exact agree _

/-- A phrase and the semicolon after it. -/
theorem beforeSemicolon_agree (agree : Agree short long) (phrase : Phrase) (message : String)
    (make : Node → Node) : phrases.Meets anything
      (do let node ← short phrase; let _ ← expect .semicolon message; return make node)
      (do let node ← long phrase; let _ ← expect .semicolon message; return make node) :=
  .bind (agree _) fun _ _ => .bind (expect_meets _ _) fun _ _ => .pure trivial

theorem variableDeclarationBody_agree (agree : Agree short long) :
    phrases.Meets anything (variableDeclarationBody short) (variableDeclarationBody long) := by
  refine .bind (expect_meets _ _) fun _ _ => .bind (expect_meets _ _) fun _ _ =>
    .bind (accept_meets _) fun equals? _ => ?_
  cases equals? with
  | none =>
    exact .bind (.pure trivial : phrases.Meets anything _ _) fun _ _ =>
      .bind (expect_meets _ _) fun _ _ => .pure trivial
  | some equals =>
    exact .bind (agree _) fun _ _ => .bind (expect_meets _ _) fun _ _ => .pure trivial

theorem functionDeclarationBody_agree (agree : Agree short long) :
    phrases.Meets anything (functionDeclarationBody short turns)
      (functionDeclarationBody long turns) :=
  .bind (expect_meets _ _) fun _ _ => .bind (expect_meets _ _) fun _ _ =>
    .bind (expect_meets _ _) fun _ _ => .bind (params_meets _) fun _ _ =>
    .bind (expect_meets _ _) fun _ _ => .bind (agree _) fun _ _ =>
    .bind (noteFunction_meets _ _) fun _ _ => .pure trivial

theorem ifStatementBody_agree (agree : Agree short long) :
    phrases.Meets anything (ifStatementBody short) (ifStatementBody long) := by
  refine .bind (expect_meets _ _) fun _ _ => .bind (expect_meets _ _) fun _ _ =>
    .bind (agree _) fun _ _ => .bind (expect_meets _ _) fun _ _ => .bind (agree _) fun _ _ =>
    .bind (accept_meets _) fun else? _ => ?_
  cases else? with
  | none => exact .bind (.pure trivial : phrases.Meets anything _ _) fun _ _ => .pure trivial
  | some divider => exact .bind (agree _) fun _ _ => .pure trivial

theorem forStatementBody_agree (agree : Agree short long) :
    phrases.Meets anything (forStatementBody short) (forStatementBody long) :=
  .bind (expect_meets _ _) fun _ _ => .bind (expect_meets _ _) fun _ _ =>
    .bind (forInitializer_agree agree) fun _ _ => .bind (expressionUnless_agree agree) fun _ _ =>
    .bind (expect_meets _ _) fun _ _ => .bind (expressionUnless_agree agree) fun _ _ =>
    .bind (expect_meets _ _) fun _ _ => .bind (agree _) fun _ _ => .pure trivial

theorem assignmentBody_agree (agree : Agree short long) :
    phrases.Meets anything (assignmentBody short) (assignmentBody long) := by
  refine .bind (agree _) fun target _ => .bind (accept_meets _) fun equals? _ => ?_
  cases equals? with
  | none => exact .pure trivial
  | some equals =>
    refine .bind (agree _) fun _ _ => ?_
    split
    · exact .pure trivial
    · exact .throw (.inl rfl)

/-- A numeric token reads as a number, so the error about one that does not is never thrown. -/
theorem primaryBody_agree (agree : Agree short long) :
    phrases.Meets anything (primaryBody short) (primaryBody long) := by
  refine .bind current_meets fun token readable => ?_
  generalize token.kind = kind at readable
  split
  case h_1 =>
    refine .bind advance_meets fun _ _ => ?_
    obtain ⟨value, found⟩ := Option.isSome_iff_exists.mp (readable rfl)
    rw [found]
    exact .pure trivial
  case h_6 =>
    exact .bind advance_meets fun _ _ => .bind (agree _) fun _ _ =>
      .bind (expect_meets _ _) fun _ _ => .pure trivial
  case h_7 => exact agree _
  case h_8 => exact .throw (.inl rfl)
  all_goals exact .bind advance_meets fun _ _ => .pure trivial

theorem body_agree (agree : Agree short long) : Agree (body short turns) (body long turns) := by
  intro phrase
  cases phrase with
  | declaration | statement =>
    refine .bind current_meets fun token _ => ?_
    generalize token.kind = kind
    split <;> exact agree _
  | variableDeclaration => exact variableDeclarationBody_agree agree
  | functionDeclaration => exact functionDeclarationBody_agree agree
  | printStatement =>
    exact .bind (expect_meets _ _) fun _ _ => beforeSemicolon_agree agree _ _ _
  | ifStatement => exact ifStatementBody_agree agree
  | whileStatement =>
    exact .bind (expect_meets _ _) fun _ _ => .bind (expect_meets _ _) fun _ _ =>
      .bind (agree _) fun _ _ => .bind (expect_meets _ _) fun _ _ => .bind (agree _) fun _ _ =>
      .pure trivial
  | forStatement => exact forStatementBody_agree agree
  | returnStatement =>
    exact .bind (expect_meets _ _) fun _ _ => .bind (expressionUnless_agree agree) fun _ _ =>
      .bind (expect_meets _ _) fun _ _ => .pure trivial
  | block =>
    exact .bind (expect_meets _ _) fun _ _ => .bind (declarations_agree agree) fun _ _ =>
      .bind (expect_meets _ _) fun _ _ => .pure trivial
  | expressionStatement => exact .bind current_meets fun _ _ => beforeSemicolon_agree agree _ _ _
  | expression => exact agree _
  | assignment => exact assignmentBody_agree agree
  | equality | comparison | term | factor =>
    exact .bind (agree _) fun _ _ => chainRest_agree agree
  | unary =>
    refine .bind (accept_meets _) fun operator? _ => ?_
    cases operator? with
    | none => exact agree _
    | some operator => exact .bind (agree _) fun _ _ => .pure trivial
  | call => exact .bind (agree _) fun _ _ => callRest_agree agree
  | primary => exact primaryBody_agree agree
  | matching =>
    exact .bind (expect_meets _ _) fun _ _ => .bind (agree _) fun _ _ =>
      .bind (expect_meets _ _) fun _ _ => .bind (arms_agree agree) fun _ _ =>
      .bind (expect_meets _ _) fun _ _ => .pure trivial

end

/-- A phrase that is parsed without reaching the limit is parsed in the same way under any higher
limit. -/
theorem parseWithin_agree (more : depth ≤ deeper) :
    Agree (fun phrase => phrase.parseWithin turns depth)
      (fun phrase => phrase.parseWithin turns deeper) := by
  induction depth generalizing deeper with
  | zero =>
    intro phrase stream readable
    exact ⟨⟨.inr rfl, readable⟩, .inl ⟨.depthExceeded, stream, rfl, rfl⟩⟩
  | succ depth ih =>
    cases deeper with
    | zero => omega
    | succ deeper => exact body_agree (ih (Nat.le_of_succ_le_succ more))

end Phrase

namespace Parse

open Contract

theorem topLevel_agree (more : depth ≤ deeper) :
    programs.Meets anything (topLevel turns depth) (topLevel turns deeper) := by
  intro stream readable
  have declared : phrases.Meets anything (Phrase.declaration.parseWithin turns depth)
      (Phrase.declaration.parseWithin turns deeper) := Phrase.parseWithin_agree more .declaration
  obtain ⟨ends, agrees⟩ := declared stream readable
  unfold topLevel
  rcases agrees with ⟨error, after, rfl, failed⟩ | same
  · rw [failed] at ends ⊢
    exact ⟨⟨rfl, ends.2⟩, .inl ⟨_, after, ⟨after.current.line, rfl⟩, rfl⟩⟩
  · rw [same] at ends ⊢
    refine ⟨?_, .inr rfl⟩
    generalize Phrase.declaration.parseWithin turns deeper stream = outcome at ends ⊢
    cases outcome with
    | ok node after => exact ends
    | error error after =>
      obtain ⟨isSyntax | rfl, readable⟩ := ends
      · cases error <;> first | exact ⟨rfl, readable⟩ | cases isSyntax
      · exact ⟨rfl, readable⟩

theorem programFrom_agree {found : Array Node} (more : depth ≤ deeper) :
    programs.Meets anything (programFrom limit depth found turns)
      (programFrom limit deeper found turns) := by
  induction turns generalizing found with
  | zero => exact .pure trivial
  | succ turns ih =>
    refine .bind (check_meets _ _) fun _ _ => ?_
    split
    · exact .pure trivial
    · exact .bind (topLevel_agree more) fun _ _ => ih

/-- A program that does not nest too deeply for a limit has the same result under any higher one, and
where it has none the text is to blame. -/
theorem program_agree (more : depth ≤ deeper) :
    programs.Meets anything (program depth) (program deeper) :=
  .bind .get fun _ _ => .bind (programFrom_agree more) fun _ _ => .pure trivial

end Parse

end Scriptlet
