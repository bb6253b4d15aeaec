import Scriptlet.Proofs.Parsing.Fork

/-! Every phrase is read in the same way in two texts that start with the same tokens. -/
namespace Scriptlet

open Scriptlet.Action Parse Phrase

/-- Phrases that end with a token of their own, or with such a phrase. The parser need not look at the
token after them, unless to see that it is no `else`. -/
def Phrase.isClosed : Phrase → Bool
  | .declaration | .variableDeclaration | .functionDeclaration | .statement | .printStatement
  | .ifStatement | .whileStatement | .forStatement | .returnStatement | .block
  | .expressionStatement => true
  | _ => false

namespace Fork

/-- The parsers of all phrases read the second text as the first. -/
def CopiesAll (fork : Fork) (limit : Nat) (parse twin : Phrase → Parse Node) : Prop :=
  ∀ phrase : Phrase, fork.Copies (!phrase.isClosed) true limit (·.mapLines fork.change) (parse phrase)
    (twin phrase)

variable {fork : Fork} {limit turns : Nat} {parse twin : Phrase → Parse Node}

theorem CopiesAll.closed {phrase : Phrase} (copies : fork.CopiesAll limit parse twin)
    (closed : phrase.isClosed) :
    fork.Copies false true limit (·.mapLines fork.change) (parse phrase) (twin phrase) := by
  have copies := copies phrase
  rwa [closed] at copies

theorem moreParams_copies (found : Array String) (turns : Nat) :
    fork.Copies true false turns (fun names => names) (moreParams found turns)
      (moreParams found (turns + fork.more)) := by
  induction turns generalizing found with
  | zero => exact .stopped
  | succ turns ih =>
    rw [Nat.add_right_comm]
    refine .accept (by simp) (fun comma => ?_) (.pure rfl) (.inl rfl) (Nat.le_refl _)
    exact .after (expect_copies (by simp) _) fun name => ih _

theorem params_copies (turns : Nat) : fork.Copies true false turns (fun names => names) (params turns)
    (params (turns + fork.more)) := by
  refine .around (check_copies _) fun closed => ?_
  split
  · exact .pure rfl
  · exact .after (expect_copies (by simp) _) fun first => moreParams_copies _ turns

theorem declarations_copies (copies : fork.CopiesAll limit parse twin) (bounded : turns ≤ limit)
    (found : Array Node) : fork.Copies true false turns (Array.map (·.mapLines fork.change))
      (declarations parse found turns)
      (declarations twin (found.map (·.mapLines fork.change)) (turns + fork.more)) := by
  induction turns generalizing found with
  | zero => exact .stopped
  | succ turns ih =>
    rw [Nat.add_right_comm]
    refine .around (check_copies _) fun closes => .around (check_copies _) fun ends => ?_
    split
    · exact .pure rfl
    · refine .afterRead ((copies .declaration).mono bounded) fun node => ?_
      rw [← Array.map_push]
      exact ih (Nat.le_of_succ_le bounded) _

theorem chainRest_copies (copies : fork.CopiesAll limit parse twin) (bounded : turns ≤ limit)
    {operators : List Kind} (real : Kind.endOfInput ∉ operators) (operand : Phrase)
    (left : Node) :
    fork.Copies true false turns (·.mapLines fork.change) (chainRest parse operand operators left turns)
      (chainRest twin operand operators (left.mapLines fork.change) (turns + fork.more)) := by
  induction turns generalizing left with
  | zero => exact .stopped
  | succ turns ih =>
    have room := Nat.le_of_succ_le bounded
    rw [Nat.add_right_comm]
    refine .accept real (fun operator => ?_) (.pure rfl) (.inl rfl) (Nat.le_refl _)
    exact .around ((copies operand).mono room).relaxed fun right => ih room _

theorem moreArguments_copies (copies : fork.CopiesAll limit parse twin) (bounded : turns ≤ limit)
    (found : Array Node) : fork.Copies true false turns (Array.map (·.mapLines fork.change))
      (moreArguments parse found turns)
      (moreArguments twin (found.map (·.mapLines fork.change)) (turns + fork.more)) := by
  induction turns generalizing found with
  | zero => exact .stopped
  | succ turns ih =>
    have room := Nat.le_of_succ_le bounded
    rw [Nat.add_right_comm]
    refine .accept (by simp) (fun comma => ?_) (.pure rfl) (.inl rfl) (Nat.le_refl _)
    refine .around ((copies .expression).mono room).relaxed fun node => ?_
    rw [← Array.map_push]
    exact ih room _

theorem arguments_copies (copies : fork.CopiesAll limit parse twin) :
    fork.Copies true false limit (Array.map (·.mapLines fork.change)) (arguments parse limit)
      (arguments twin (limit + fork.more)) := by
  refine .around (check_copies _) fun closed => ?_
  split
  · exact .pure Array.map_empty.symm
  · refine .around (copies .expression).relaxed fun first => ?_
    have more := moreArguments_copies copies (Nat.le_refl limit) #[first]
    rwa [Array.map_singleton] at more

theorem callRest_copies (copies : fork.CopiesAll limit parse twin) (bounded : turns ≤ limit)
    (callee : Node) : fork.Copies true false turns (·.mapLines fork.change)
      (callRest parse limit callee turns)
      (callRest twin (limit + fork.more) (callee.mapLines fork.change) (turns + fork.more)) := by
  induction turns generalizing callee with
  | zero => exact .stopped
  | succ turns ih =>
    have room := Nat.le_of_succ_le bounded
    rw [Nat.add_right_comm]
    refine .accept (by simp) (fun paren => ?_) (.pure rfl) (.inl rfl) (Nat.le_refl _)
    refine .before ((arguments_copies copies).mono room) fun given =>
      .after (expect_copies (by simp) _) fun _ => ?_
    have called : Node.mapLines fork.change (.call paren.line callee given.toList) =
        .call (paren.mapLine fork.change).line (callee.mapLines fork.change)
          (given.map (·.mapLines fork.change)).toList := by
      rw [Node.mapLines, Node.mapLinesAll_eq, Array.toList_map]
      rfl
    rw [← called]
    exact ih room _

theorem arm_copies (copies : fork.CopiesAll limit parse twin) :
    fork.Copies true true limit (·.mapLines fork.change) (arm parse) (arm twin) :=
  .after (expect_copies (by simp) _) fun keyword => .before (copies .expression) fun pattern =>
    .after (expect_copies (by simp) _) fun _ => .around (copies .expression).relaxed fun body =>
      .pure rfl

theorem arms_copies (copies : fork.CopiesAll limit parse twin) (bounded : turns ≤ limit)
    (found : Array Node) : fork.Copies true false turns (Array.map (·.mapLines fork.change))
      (arms parse found turns)
      (arms twin (found.map (·.mapLines fork.change)) (turns + fork.more)) := by
  induction turns generalizing found with
  | zero => exact .stopped
  | succ turns ih =>
    rw [Nat.add_right_comm]
    refine .around (check_copies _) fun closed => ?_
    split
    · exact .pure rfl
    · refine .around ((arm_copies copies).mono bounded).relaxed fun next => ?_
      refine .accept (by simp) (fun comma => ?_) (.pure ?_) (.inl rfl) (Nat.le_refl _)
      · rw [← Array.map_push]
        exact ih (Nat.le_of_succ_le bounded) _
      · rw [Array.map_push]

theorem expressionUnless_copies (copies : fork.CopiesAll limit parse twin) (stop : Kind) :
    fork.Copies true false limit (·.mapLines fork.change) (expressionUnless parse stop)
      (expressionUnless twin stop) := by
  refine .around (check_copies _) fun stops => ?_
  split
  · exact .pure rfl
  · exact (copies .expression).relaxed

theorem forInitializer_copies (copies : fork.CopiesAll limit parse twin) :
    fork.Copies true true limit (·.mapLines fork.change) (forInitializer parse)
      (forInitializer twin) := by
  refine .acceptBefore (by simp) (fun semicolon => .pure rfl) ?_
  refine .before (check_copies _) fun isVar => ?_
  split <;> exact (copies _).weaken (by simp) id

theorem printStatementBody_copies (copies : fork.CopiesAll limit parse twin) :
    fork.Copies false true limit (·.mapLines fork.change) (printStatementBody parse)
      (printStatementBody twin) :=
  .after (expect_copies (by simp) _) fun _ => .before (copies .expression) fun _ =>
    .after (expect_copies (by simp) _) fun _ => .pure rfl

theorem returnStatementBody_copies (copies : fork.CopiesAll limit parse twin) :
    fork.Copies false true limit (·.mapLines fork.change) (returnStatementBody parse)
      (returnStatementBody twin) :=
  .after (expect_copies (by simp) _) fun _ => .before (expressionUnless_copies copies _) fun _ =>
    .after (expect_copies (by simp) _) fun _ => .pure rfl

theorem expressionStatementBody_copies (copies : fork.CopiesAll limit parse twin) :
    fork.Copies false true limit (·.mapLines fork.change) (expressionStatementBody parse)
      (expressionStatementBody twin) :=
  .before current_copies fun _ => .before (copies .expression) fun _ =>
    .after (expect_copies (by simp) _) fun _ => .pure rfl

theorem variableDeclarationBody_copies (copies : fork.CopiesAll limit parse twin) :
    fork.Copies false true limit (·.mapLines fork.change) (variableDeclarationBody parse)
      (variableDeclarationBody twin) := by
  refine .after (expect_copies (by simp) _) fun keyword =>
    .after (expect_copies (by simp) _) fun name => .acceptBefore (by simp) (fun equals => ?_) ?_
  · exact .before (copies .expression) fun initializer => .after (expect_copies (by simp) _) fun _ =>
      .pure rfl
  · have nothing : fork.Copies false false limit (Node.mapLines fork.change) (pure .absent)
        (pure .absent) := .pure rfl
    exact .before nothing fun initializer => .after (expect_copies (by simp) _) fun _ => .pure rfl

theorem functionDeclarationBody_copies (copies : fork.CopiesAll limit parse twin) :
    fork.Copies false true limit (·.mapLines fork.change) (functionDeclarationBody parse limit)
      (functionDeclarationBody twin (limit + fork.more)) :=
  .after (expect_copies (by simp) _) fun keyword => .after (expect_copies (by simp) _) fun name =>
    .after (expect_copies (by simp) _) fun _ => .before (params_copies limit) fun names =>
    .after (expect_copies (by simp) _) fun _ => .after (copies .block) fun body =>
    .bind (noteFunction_copies _ _) (fun _ => .pure rfl) (by simp)

theorem ifStatementBody_copies (copies : fork.CopiesAll limit parse twin) :
    fork.Copies false true limit (·.mapLines fork.change) (ifStatementBody parse)
      (ifStatementBody twin) := by
  refine .after (expect_copies (by simp) _) fun keyword => .after (expect_copies (by simp) _) fun _ =>
    .before (copies .expression) fun condition => .after (expect_copies (by simp) _) fun _ =>
    .after (copies .statement) fun branch => .accept (by simp) (fun divider => ?_) ?_
      (.inr (.inr fun free next starts => by simpa using free next starts)) (Nat.le_succ limit)
  · exact .after (copies .statement) fun _ => .pure rfl
  · exact .pure rfl

theorem whileStatementBody_copies (copies : fork.CopiesAll limit parse twin) :
    fork.Copies false true limit (·.mapLines fork.change) (whileStatementBody parse)
      (whileStatementBody twin) :=
  .after (expect_copies (by simp) _) fun keyword => .after (expect_copies (by simp) _) fun _ =>
    .before (copies .expression) fun condition => .after (expect_copies (by simp) _) fun _ =>
    .after (copies .statement) fun body => .pure rfl

theorem forStatementBody_copies (copies : fork.CopiesAll limit parse twin) :
    fork.Copies false true limit (·.mapLines fork.change) (forStatementBody parse)
      (forStatementBody twin) :=
  .after (expect_copies (by simp) _) fun keyword => .after (expect_copies (by simp) _) fun _ =>
    .before (forInitializer_copies copies) fun initializer => .before (expressionUnless_copies copies _)
    fun condition => .after (expect_copies (by simp) _) fun _ =>
    .before (expressionUnless_copies copies _) fun increment => .after (expect_copies (by simp) _)
    fun _ => .after (copies .statement) fun body => .pure (Node.expandFor_mapLines ..).symm

theorem assignmentBody_copies (copies : fork.CopiesAll limit parse twin) :
    fork.Copies true true limit (·.mapLines fork.change) (assignmentBody parse)
      (assignmentBody twin) := by
  refine .around (copies .equality) fun target => .accept (by simp) (fun equals => ?_) (.pure rfl)
    (.inl rfl) (Nat.le_succ limit)
  refine .around (copies .assignment).relaxed fun value => ?_
  cases target with
  | reference line name => exact .pure rfl
  | _ => exact .throw rfl

theorem unaryBody_copies (copies : fork.CopiesAll limit parse twin) :
    fork.Copies true true limit (·.mapLines fork.change) (unaryBody parse) (unaryBody twin) := by
  refine .acceptBefore (by simp) (fun operator => ?_) (copies .call)
  exact .around (copies .unary).relaxed fun operand => .pure rfl

/-- The current token is read only where it is known not to be the end of the input. -/
theorem primaryBody_copies (copies : fork.CopiesAll limit parse twin) :
    fork.Copies true true limit (·.mapLines fork.change) (primaryBody parse) (primaryBody twin) := by
  intro stream terminated
  refine ((current_copies stream terminated).bind terminated ?_ (by simp)
    (.inl (Nat.le_refl limit)) : fork.CopiesFrom true (false || true) _ _ _ _ _)
  intro token after looked started
  cases looked
  have reads : stream.current.kind ≠ .endOfInput →
      ∀ {rest rest' : Token → Parse Node}, (∀ token, fork.Copies true false limit
        (·.mapLines fork.change) (rest token) (rest' (token.mapLine fork.change))) →
      fork.CopiesFrom true true limit (·.mapLines fork.change) (advance >>= rest) (advance >>= rest')
        stream :=
    fun real _ _ goes => (advance_copies terminated real).after terminated goes (Nat.le_succ limit)
  dsimp only [Token.mapLine]
  generalize same : stream.current.kind = kind at reads
  split
  case h_1 =>
    refine reads (by simp) fun _ => ?_
    split
    · exact .pure rfl
    · exact .throw rfl
  case h_6 =>
    exact reads (by simp) fun _ => .around (copies .expression).relaxed fun _ =>
      .after (expect_copies (by simp) _) fun _ => .pure rfl
  case h_7 => exact copies .matching stream terminated
  case h_8 =>
    subst same
    exact Copies.throw rfl stream terminated
  all_goals exact reads (by simp) fun _ => .pure rfl

theorem matchingBody_copies (copies : fork.CopiesAll limit parse twin) :
    fork.Copies true true limit (·.mapLines fork.change) (matchingBody parse limit)
      (matchingBody twin (limit + fork.more)) := by
  have arms := arms_copies copies (Nat.le_refl limit) #[]
  rw [Array.map_empty] at arms
  refine .after (expect_copies (by simp) _) fun keyword => .before (copies .expression) fun subject =>
    .after (expect_copies (by simp) _) fun _ => .before arms fun found =>
    .after (expect_copies (by simp) _) fun _ => .pure ?_
  rw [Node.mapLines, Node.mapLinesAll_eq, Array.toList_map]
  rfl

theorem blockBody_copies (copies : fork.CopiesAll limit parse twin) :
    fork.Copies false true limit (·.mapLines fork.change) (blockBody parse limit)
      (blockBody twin (limit + fork.more)) := by
  have declarations := declarations_copies copies (Nat.le_refl limit) #[]
  rw [Array.map_empty] at declarations
  refine .after (expect_copies (by simp) _) fun brace => .before declarations fun statements =>
    .after (expect_copies (by simp) _) fun _ => .pure ?_
  rw [Node.mapLines, Node.mapLinesAll_eq, Array.toList_map]
  rfl

theorem chain_copies (copies : fork.CopiesAll limit parse twin) {operators : List Kind}
    (real : Kind.endOfInput ∉ operators) (operand : Phrase) :
    fork.Copies true true limit (·.mapLines fork.change) (chain parse operand operators limit)
      (chain twin operand operators (limit + fork.more)) :=
  .around (copies operand) fun first => chainRest_copies copies (Nat.le_refl limit) real operand first

theorem body_copies (copies : fork.CopiesAll limit parse twin) :
    fork.CopiesAll limit (body parse limit) (body twin (limit + fork.more)) := by
  intro phrase
  cases phrase with
  | declaration | statement =>
    refine .before current_copies fun token => ?_
    dsimp only [Token.mapLine]
    generalize token.kind = kind
    split <;> exact copies.closed rfl
  | variableDeclaration => exact variableDeclarationBody_copies copies
  | functionDeclaration => exact functionDeclarationBody_copies copies
  | printStatement => exact printStatementBody_copies copies
  | ifStatement => exact ifStatementBody_copies copies
  | whileStatement => exact whileStatementBody_copies copies
  | forStatement => exact forStatementBody_copies copies
  | returnStatement => exact returnStatementBody_copies copies
  | block => exact blockBody_copies copies
  | expressionStatement => exact expressionStatementBody_copies copies
  | expression => exact copies .assignment
  | assignment => exact assignmentBody_copies copies
  | equality | comparison | term | factor => exact chain_copies copies (by simp) _
  | unary => exact unaryBody_copies copies
  | call =>
    exact .around (copies .primary) fun callee => callRest_copies copies (Nat.le_refl limit) callee
  | primary => exact primaryBody_copies copies
  | matching => exact matchingBody_copies copies

/-- What comes after a phrase does not matter at any depth. -/
theorem parseWithin_copies (fork : Fork) (limit depth : Nat) :
    fork.CopiesAll limit (parseWithin limit depth) (parseWithin (limit + fork.more) depth) := by
  induction depth with
  | zero => exact fun phrase => .throw rfl
  | succ depth ih => exact body_copies ih

theorem topLevel_shallow (limit depth : Nat) {stream : Stream}
    (shallow : ∀ reached, parseWithin limit depth .declaration stream ≠ .error .depthExceeded reached) :
    topLevel limit depth stream = parseWithin limit depth .declaration stream := by
  unfold topLevel
  cases outcome : parseWithin limit depth .declaration stream with
  | ok node after => rfl
  | error error after =>
    cases error with
    | depthExceeded => exact absurd outcome (shallow after)
    | _ => rfl

theorem topLevel_copies (fork : Fork) (limit depth : Nat) :
    fork.Copies false true limit (·.mapLines fork.change) (topLevel limit depth)
      (topLevel (limit + fork.more) depth) := by
  intro stream terminated
  have copies := fork.parseWithin_copies limit depth .declaration stream terminated
  by_cases deep : ∃ reached, parseWithin limit depth .declaration stream = .error .depthExceeded reached
  · obtain ⟨reached, outcome⟩ := deep
    have run : topLevel limit depth stream =
        .error (.nestedTooDeeply reached.current.line) reached := by rw [topLevel, outcome]
    refine ⟨?_, fun span left twin split roomy there ended free => ?_⟩
    · have onward := copies.onward
      rw [outcome] at onward
      rw [run]
      exact onward
    · rw [run] at ended free ⊢
      have kept : left ≠ [] := by simpa [succeeded] using free
      have twins := copies.copy span left twin split roomy there (by rw [outcome]; exact ended) (.inl kept)
      rw [outcome] at twins
      unfold topLevel
      generalize parseWithin (limit + fork.more) depth .declaration twin = arrived at twins
      cases arrived with
      | ok => exact absurd twins id
      | error error after =>
        obtain ⟨rfl, there⟩ := twins
        refine ⟨?_, there⟩
        rw [there.current_of_ne ended kept]
        rfl
  · have shallow : ∀ reached, parseWithin limit depth .declaration stream ≠ .error .depthExceeded reached :=
      fun reached outcome => deep ⟨reached, outcome⟩
    have run := topLevel_shallow limit depth shallow
    refine ⟨by rw [run]; exact copies.onward, fun span left twin split roomy there ended free => ?_⟩
    rw [run] at ended free ⊢
    have twins := copies.copy span left twin split roomy there ended free
    rw [topLevel_shallow (limit + fork.more) depth fun reached outcome => ?_]
    · exact twins
    · rw [outcome] at twins
      generalize parseWithin limit depth .declaration stream = began at twins shallow
      cases began with
      | ok => exact twins
      | error error after =>
        obtain ⟨same, -⟩ := twins
        cases error <;> first | exact absurd rfl (shallow after) | cases same

theorem programFrom_copies (fork : Fork) (limit depth : Nat) (bounded : turns ≤ limit)
    (found : Array Node) : fork.Copies true false turns (Array.map (·.mapLines fork.change))
      (programFrom limit depth found turns)
      (programFrom (limit + fork.more) depth (found.map (·.mapLines fork.change))
        (turns + fork.more)) := by
  induction turns generalizing found with
  | zero => exact .stopped
  | succ turns ih =>
    rw [Nat.add_right_comm]
    refine .around (check_copies _) fun ended => ?_
    split
    · exact .pure rfl
    · refine .afterRead ((fork.topLevel_copies limit depth).mono bounded) fun node => ?_
      rw [← Array.map_push]
      exact ih (Nat.le_of_succ_le bounded) _

end Fork

end Scriptlet
