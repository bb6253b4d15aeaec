import Scriptlet.Script
import Scriptlet.Proofs.Node.Lines
import Scriptlet.Proofs.Parsing.Stream

/-! The parser copies the lines of tokens into trees and errors, and decides nothing by them. So tokens
on other lines are read in the same way. -/
namespace Scriptlet

open Scriptlet.Action

/-- The same tokens on other lines. -/
def Stream.mapLines (change : Int → Int) (stream : Stream) : Stream :=
  { stream with
    current := stream.current.mapLine change
    ahead := stream.ahead.map (·.mapLine change) }

namespace Stream

variable {change : Int → Int} {tokens : List Token}

theorem next_mapLines (stream : Stream) :
    (stream.mapLines change).next = stream.next.mapLines change := by
  obtain ⟨current, ahead, pos, declared⟩ := stream
  unfold next mapLines
  by_cases ended : current.kind = .endOfInput
  · simp [Token.mapLine, ended]
  · cases ahead with
    | nil => simp [Token.mapLine, ended]
    | cons token rest => simp [Token.mapLine, ended]

theorem size_mapLines (stream : Stream) : (stream.mapLines change).size = stream.size := by
  simp [size, mapLines]

theorem terminate_mapLines (some : tokens ≠ []) :
    terminate (tokens.map (·.mapLine change)) = (terminate tokens).map (·.mapLine change) := by
  obtain ⟨last, final⟩ := List.getLast?_isSome.mpr some |> Option.isSome_iff_exists.mp
  unfold terminate
  rw [List.getLast?_map, final]
  by_cases ended : last.kind = .endOfInput
  · simp [Token.mapLine, ended]
  · simp [Token.mapLine, ended]

theorem ofTokens_mapLines (some : tokens ≠ []) :
    ofTokens (tokens.map (·.mapLine change)) = (ofTokens tokens).mapLines change := by
  unfold ofTokens
  rw [terminate_mapLines some]
  cases whole : terminate tokens with
  | cons first ahead => rfl
  | nil =>
    unfold terminate at whole
    split at whole
    · cases whole
    · split at whole
      · exact absurd whole some
      · simp at whole

end Stream

namespace Parse

/-- The same outcome with other lines. -/
def outcome (change : Int → Int) (convert : α → β) :
    EStateM.Result ParseError Stream α → EStateM.Result ParseError Stream β
  | .ok value after => .ok (convert value) (after.mapLines change)
  | .error error after => .error (error.mapLine change) (after.mapLines change)

/-- The second action does to tokens on other lines what the first one does to the tokens. -/
def Relines (change : Int → Int) (convert : α → β) (first : Parse α) (second : Parse β) : Prop :=
  ∀ stream : Stream, second (stream.mapLines change) = outcome change convert (first stream)

section

variable {change : Int → Int} {convert : α → β} {convert' : γ → δ}

theorem Relines.pure {value : α} {value' : β} (same : value' = convert value) :
    Relines change convert (pure value) (pure value') := by
  intro stream
  rw [same]
  rfl

theorem Relines.throw {error error' : ParseError} (same : error' = error.mapLine change) :
    Relines change convert (throw error) (throw error') := by
  intro stream
  rw [same]
  rfl

theorem Relines.bind {first : Parse α} {second : Parse β} {rest : α → Parse γ} {rest' : β → Parse δ}
    (begins : Relines change convert first second)
    (goes : ∀ value, Relines change convert' (rest value) (rest' (convert value))) :
    Relines change convert' (first >>= rest) (second >>= rest') := by
  intro stream
  rw [bind_run, bind_run, begins stream]
  cases first stream with
  | ok value after => exact goes value after
  | error error after => rfl

theorem current_relines : Relines change (·.mapLine change) current current :=
  fun _ => rfl

theorem check_relines (kind : Kind) : Relines change id (check kind) (check kind) :=
  fun _ => rfl

theorem advance_relines : Relines change (·.mapLine change) advance advance := by
  intro stream
  rw [advance_run, advance_run, Stream.next_mapLines]
  rfl

theorem accept_relines (kinds : List Kind) :
    Relines change (Option.map (·.mapLine change)) (accept kinds) (accept kinds) := by
  intro stream
  have same : (stream.mapLines change).current.kind = stream.current.kind := rfl
  rw [accept_run, accept_run, same, Stream.next_mapLines]
  by_cases listed : stream.current.kind ∈ kinds
  · rw [if_pos listed, if_pos listed]
    rfl
  · rw [if_neg listed, if_neg listed]
    rfl

theorem expect_relines (kind : Kind) (message : String) :
    Relines change (·.mapLine change) (expect kind message) (expect kind message) := by
  intro stream
  have same : (stream.mapLines change).current.kind = stream.current.kind := rfl
  rw [expect_run, expect_run, same, Stream.next_mapLines]
  by_cases found : stream.current.kind = kind
  · rw [if_pos found, if_pos found]
    rfl
  · rw [if_neg found, if_neg found]
    rfl

theorem noteFunction_relines (name : String) (arity : Nat) :
    Relines change id (noteFunction name arity) (noteFunction name arity) :=
  fun _ => rfl

/-- A token that may or may not be there. -/
theorem Relines.accept {kinds : List Kind} {rest : Option Token → Parse γ}
    {rest' : Option Token → Parse δ}
    (present : ∀ token, Relines change convert' (rest (some token))
      (rest' (some (token.mapLine change))))
    (absent : Relines change convert' (rest none) (rest' none)) :
    Relines change convert' (accept kinds >>= rest) (accept kinds >>= rest') := by
  refine .bind (accept_relines kinds) fun token? => ?_
  cases token? with
  | some token => exact present token
  | none => exact absent

/-- An action that depends on whether the current token is of a kind. -/
theorem Relines.check {kind : Kind} {rest : Bool → Parse γ} {rest' : Bool → Parse δ}
    (goes : ∀ found, Relines change convert' (rest found) (rest' found)) :
    Relines change convert' (check kind >>= rest) (check kind >>= rest') :=
  .bind (check_relines kind) goes

end

end Parse

namespace Phrase

open Parse

/-- The parsers of all phrases decide nothing by lines. -/
def RelinesAll (change : Int → Int) (parse : Phrase → Parse Node) : Prop :=
  ∀ phrase, Relines change (·.mapLines change) (parse phrase) (parse phrase)

section

variable {change : Int → Int} {parse : Phrase → Parse Node}

theorem moreParams_relines (found : Array String) (turns : Nat) :
    Relines change id (moreParams found turns) (moreParams found turns) := by
  induction turns generalizing found with
  | zero => exact .pure rfl
  | succ turns ih =>
    refine .accept (fun comma => ?_) (.pure rfl)
    exact .bind (expect_relines _ _) fun name => ih _

theorem params_relines (turns : Nat) : Relines change id (params turns) (params turns) := by
  refine .check fun closed => ?_
  split
  · exact .pure rfl
  · exact .bind (expect_relines _ _) fun first => moreParams_relines _ turns

theorem declarations_relines (all : RelinesAll change parse) (found : Array Node) (turns : Nat) :
    Relines change (Array.map (·.mapLines change)) (declarations parse found turns)
      (declarations parse (found.map (·.mapLines change)) turns) := by
  induction turns generalizing found with
  | zero => exact .pure rfl
  | succ turns ih =>
    refine .check fun closes => .check fun ends => ?_
    split
    · exact .pure rfl
    · refine .bind (all .declaration) fun node => ?_
      rw [← Array.map_push]
      exact ih _

theorem chainRest_relines (all : RelinesAll change parse) (operand : Phrase) (operators : List Kind)
    (left : Node) (turns : Nat) :
    Relines change (·.mapLines change) (chainRest parse operand operators left turns)
      (chainRest parse operand operators (left.mapLines change) turns) := by
  induction turns generalizing left with
  | zero => exact .pure rfl
  | succ turns ih =>
    refine .accept (fun operator => ?_) (.pure rfl)
    exact .bind (all operand) fun right => ih (.binary operator.line operator.lexeme left right)

theorem moreArguments_relines (all : RelinesAll change parse) (found : Array Node) (turns : Nat) :
    Relines change (Array.map (·.mapLines change)) (moreArguments parse found turns)
      (moreArguments parse (found.map (·.mapLines change)) turns) := by
  induction turns generalizing found with
  | zero => exact .pure rfl
  | succ turns ih =>
    refine .accept (fun comma => .bind (all .expression) fun node => ?_) (.pure rfl)
    rw [← Array.map_push]
    exact ih _

theorem arguments_relines (all : RelinesAll change parse) (turns : Nat) :
    Relines change (Array.map (·.mapLines change)) (arguments parse turns) (arguments parse turns) := by
  refine .check fun closed => ?_
  split
  · exact .pure Array.map_empty.symm
  · refine .bind (all .expression) fun first => ?_
    have more := moreArguments_relines all #[first] turns
    rwa [Array.map_singleton] at more

theorem callRest_relines (all : RelinesAll change parse) (limit : Nat) (callee : Node) (turns : Nat) :
    Relines change (·.mapLines change) (callRest parse limit callee turns)
      (callRest parse limit (callee.mapLines change) turns) := by
  induction turns generalizing callee with
  | zero => exact .pure rfl
  | succ turns ih =>
    refine .accept (fun paren => ?_) (.pure rfl)
    refine .bind (arguments_relines all limit) fun given => .bind (expect_relines _ _) fun _ => ?_
    have called : Node.mapLines change (.call paren.line callee given.toList) =
        .call (paren.mapLine change).line (callee.mapLines change)
          (given.map (·.mapLines change)).toList := by
      rw [Node.mapLines, Node.mapLinesAll_eq, Array.toList_map]
      rfl
    rw [← called]
    exact ih _

theorem arm_relines (all : RelinesAll change parse) :
    Relines change (·.mapLines change) (arm parse) (arm parse) :=
  .bind (expect_relines _ _) fun _ => .bind (all .expression) fun _ =>
    .bind (expect_relines _ _) fun _ => .bind (all .expression) fun _ => .pure rfl

theorem arms_relines (all : RelinesAll change parse) (found : Array Node) (turns : Nat) :
    Relines change (Array.map (·.mapLines change)) (arms parse found turns)
      (arms parse (found.map (·.mapLines change)) turns) := by
  induction turns generalizing found with
  | zero => exact .pure rfl
  | succ turns ih =>
    refine .check fun closed => ?_
    split
    · exact .pure rfl
    · refine .bind (arm_relines all) fun next => .accept (fun comma => ?_) (.pure ?_)
      · rw [← Array.map_push]
        exact ih _
      · rw [Array.map_push]

theorem expressionUnless_relines (all : RelinesAll change parse) (stop : Kind) :
    Relines change (·.mapLines change) (expressionUnless parse stop) (expressionUnless parse stop) := by
  refine .check fun stops => ?_
  split
  · exact .pure rfl
  · exact all .expression

theorem forInitializer_relines (all : RelinesAll change parse) :
    Relines change (·.mapLines change) (forInitializer parse) (forInitializer parse) := by
  refine .accept (fun semicolon => .pure rfl) (.check fun declares => ?_)
  split <;> exact all _

theorem variableDeclarationBody_relines (all : RelinesAll change parse) :
    Relines change (·.mapLines change) (variableDeclarationBody parse)
      (variableDeclarationBody parse) := by
  have finished (keyword name : Token) (initializer : Node) :
      Relines change (·.mapLines change)
        (do let _ ← expect .semicolon "Expected ';' after variable declaration"
            return Node.varDecl keyword.line name.lexeme initializer)
        (do let _ ← expect .semicolon "Expected ';' after variable declaration"
            return Node.varDecl (change keyword.line) name.lexeme (initializer.mapLines change)) :=
    .bind (expect_relines _ _) fun _ => .pure rfl
  refine .bind (expect_relines _ _) fun keyword => .bind (expect_relines _ _) fun name =>
    .accept (fun equals => ?_) ?_
  · exact .bind (all .expression) (finished keyword name)
  · exact finished keyword name .absent

theorem functionDeclarationBody_relines (all : RelinesAll change parse) (turns : Nat) :
    Relines change (·.mapLines change) (functionDeclarationBody parse turns)
      (functionDeclarationBody parse turns) :=
  .bind (expect_relines _ _) fun _ => .bind (expect_relines _ _) fun _ =>
    .bind (expect_relines _ _) fun _ => .bind (params_relines turns) fun _ =>
    .bind (expect_relines _ _) fun _ => .bind (all .block) fun _ =>
    .bind (noteFunction_relines _ _) fun _ => .pure rfl

theorem ifStatementBody_relines (all : RelinesAll change parse) :
    Relines change (·.mapLines change) (ifStatementBody parse) (ifStatementBody parse) := by
  refine .bind (expect_relines _ _) fun keyword => .bind (expect_relines _ _) fun _ =>
    .bind (all .expression) fun condition => .bind (expect_relines _ _) fun _ =>
    .bind (all .statement) fun branch => .accept (fun divider => ?_) (.pure rfl)
  exact .bind (all .statement) fun otherwise => .pure rfl

theorem whileStatementBody_relines (all : RelinesAll change parse) :
    Relines change (·.mapLines change) (whileStatementBody parse) (whileStatementBody parse) :=
  .bind (expect_relines _ _) fun _ => .bind (expect_relines _ _) fun _ =>
    .bind (all .expression) fun _ => .bind (expect_relines _ _) fun _ =>
    .bind (all .statement) fun _ => .pure rfl

theorem forStatementBody_relines (all : RelinesAll change parse) :
    Relines change (·.mapLines change) (forStatementBody parse) (forStatementBody parse) :=
  .bind (expect_relines _ _) fun _ => .bind (expect_relines _ _) fun _ =>
    .bind (forInitializer_relines all) fun _ =>
    .bind (expressionUnless_relines all _) fun _ => .bind (expect_relines _ _) fun _ =>
    .bind (expressionUnless_relines all _) fun _ => .bind (expect_relines _ _) fun _ =>
    .bind (all .statement) fun _ => .pure (Node.expandFor_mapLines ..).symm

/-- A phrase and the semicolon after it. -/
theorem beforeSemicolon_relines {first : Parse Node} (message : String) {make make' : Node → Node}
    (begins : Relines change (·.mapLines change) first first)
    (same : ∀ node, make' (node.mapLines change) = (make node).mapLines change) :
    Relines change (·.mapLines change)
      (do let node ← first; let _ ← expect .semicolon message; return make node)
      (do let node ← first; let _ ← expect .semicolon message; return make' node) :=
  .bind begins fun node => .bind (expect_relines _ _) fun _ => .pure (same node)

theorem assignmentBody_relines (all : RelinesAll change parse) :
    Relines change (·.mapLines change) (assignmentBody parse) (assignmentBody parse) := by
  refine .bind (all .equality) fun target => .accept (fun equals => ?_) (.pure rfl)
  refine .bind (all .assignment) fun value => ?_
  cases target with
  | reference line name => exact .pure rfl
  | _ => exact .throw rfl

theorem primaryBody_relines (all : RelinesAll change parse) :
    Relines change (·.mapLines change) (primaryBody parse) (primaryBody parse) := by
  refine .bind current_relines fun token => ?_
  dsimp only [Token.mapLine]
  split
  case h_1 =>
    refine .bind advance_relines fun _ => ?_
    split
    · exact .pure rfl
    · exact .throw rfl
  case h_6 =>
    exact .bind advance_relines fun _ => .bind (all .expression) fun _ =>
      .bind (expect_relines _ _) fun _ => .pure rfl
  case h_7 => exact all .matching
  case h_8 => exact .throw rfl
  all_goals exact .bind advance_relines fun _ => .pure rfl

theorem blockBody_relines (all : RelinesAll change parse) (turns : Nat) :
    Relines change (·.mapLines change) (blockBody parse turns) (blockBody parse turns) := by
  have inner := declarations_relines all #[] turns
  rw [Array.map_empty] at inner
  refine .bind (expect_relines _ _) fun brace => .bind inner fun statements =>
    .bind (expect_relines _ _) fun _ => .pure ?_
  rw [Node.mapLines, Node.mapLinesAll_eq, Array.toList_map]
  rfl

theorem matchingBody_relines (all : RelinesAll change parse) (turns : Nat) :
    Relines change (·.mapLines change) (matchingBody parse turns) (matchingBody parse turns) := by
  have inner := arms_relines all #[] turns
  rw [Array.map_empty] at inner
  refine .bind (expect_relines _ _) fun keyword => .bind (all .expression) fun subject =>
    .bind (expect_relines _ _) fun _ => .bind inner fun found =>
    .bind (expect_relines _ _) fun _ => .pure ?_
  rw [Node.mapLines, Node.mapLinesAll_eq, Array.toList_map]
  rfl

theorem body_relines (all : RelinesAll change parse) (turns : Nat) :
    RelinesAll change (body parse turns) := by
  intro phrase
  cases phrase with
  | declaration | statement =>
    refine .bind current_relines fun token => ?_
    dsimp only [Token.mapLine]
    split <;> exact all _
  | variableDeclaration => exact variableDeclarationBody_relines all
  | functionDeclaration => exact functionDeclarationBody_relines all turns
  | printStatement =>
    exact .bind (expect_relines _ _) fun keyword =>
      beforeSemicolon_relines _ (all .expression) fun _ => rfl
  | ifStatement => exact ifStatementBody_relines all
  | whileStatement => exact whileStatementBody_relines all
  | forStatement => exact forStatementBody_relines all
  | returnStatement =>
    exact .bind (expect_relines _ _) fun keyword =>
      beforeSemicolon_relines _ (expressionUnless_relines all _) fun _ => rfl
  | block => exact blockBody_relines all turns
  | expressionStatement =>
    exact .bind current_relines fun token =>
      beforeSemicolon_relines _ (all .expression) fun _ => rfl
  | expression => exact all .assignment
  | assignment => exact assignmentBody_relines all
  | equality | comparison | term | factor =>
    exact .bind (all _) fun first => chainRest_relines all _ _ first turns
  | unary =>
    refine .accept (fun operator => ?_) (all .call)
    exact .bind (all .unary) fun operand => .pure rfl
  | call => exact .bind (all .primary) fun callee => callRest_relines all turns callee turns
  | primary => exact primaryBody_relines all
  | matching => exact matchingBody_relines all turns

theorem parseWithin_relines (change : Int → Int) (turns depth : Nat) :
    RelinesAll change (parseWithin turns depth) := by
  induction depth with
  | zero => exact fun phrase => .throw rfl
  | succ depth ih => exact body_relines ih turns

end

end Phrase

namespace Parse

variable {change : Int → Int}

/-- The line of an error about nesting is that of the token at which parsing stopped. -/
theorem topLevel_relines (turns depth : Nat) :
    Relines change (·.mapLines change) (topLevel turns depth) (topLevel turns depth) := by
  intro stream
  unfold topLevel
  rw [Phrase.parseWithin_relines change turns depth .declaration stream]
  cases Phrase.declaration.parseWithin turns depth stream with
  | ok node after => rfl
  | error error after => cases error <;> rfl

theorem programFrom_relines (change : Int → Int) (limit depth : Nat) (found : Array Node) (turns : Nat) :
    Relines change (Array.map (·.mapLines change)) (programFrom limit depth found turns)
      (programFrom limit depth (found.map (·.mapLines change)) turns) := by
  induction turns generalizing found with
  | zero => exact .pure rfl
  | succ turns ih =>
    refine .check fun ended => ?_
    split
    · exact .pure rfl
    · refine .bind (topLevel_relines limit depth) fun node => ?_
      rw [← Array.map_push]
      exact ih _

theorem program_relines (depth : Nat) :
    Relines change (List.map (·.mapLines change)) (program depth) (program depth) := by
  intro stream
  have ran := programFrom_relines change stream.size depth #[] stream.size
  rw [Array.map_empty] at ran
  have gathered : Relines change (List.map (·.mapLines change))
      (programFrom stream.size depth #[] stream.size >>= fun found => pure found.toList)
      (programFrom stream.size depth #[] stream.size >>= fun found => pure found.toList) :=
    .bind ran fun found => .pure Array.toList_map
  unfold program
  rw [bind_of_ok _ (get_run _), bind_of_ok _ (get_run _), Stream.size_mapLines]
  exact gathered stream

end Parse

/-- Tokens on other lines are read as the same program on other lines, or they are rejected at the same
token for the same reason. -/
theorem Script.parseTokens_mapLine (limits : Limits) (change : Int → Int) {tokens : List Token}
    (some : tokens ≠ []) :
    parseTokens limits (tokens.map (·.mapLine change)) =
      Parse.outcome change (List.map (·.mapLines change)) (parseTokens limits tokens) := by
  rw [parseTokens, Stream.ofTokens_mapLines some, parseTokens]
  exact Parse.program_relines limits.depth _

end Scriptlet
