import Scriptlet.Proofs.Grammar.Resumption

/-! Every phrase that is read up to an unexpected token can be carried on, at a higher depth limit that
leaves room for the closings. -/
namespace Scriptlet.Grammar

open Scriptlet.Action Parse Phrase

/-- The kinds of some tokens that are a phrase. -/
def closingKinds : Phrase → List Kind
  | .variableDeclaration => [.varWord, .identifier, .semicolon]
  | .functionDeclaration =>
    [.fnWord, .identifier, .leftParen, .rightParen, .leftBrace, .rightBrace]
  | .printStatement => [.printWord, .nullWord, .semicolon]
  | .ifStatement => [.ifWord, .leftParen, .nullWord, .rightParen, .nullWord, .semicolon]
  | .whileStatement => [.whileWord, .leftParen, .nullWord, .rightParen, .nullWord, .semicolon]
  | .forStatement =>
    [.forWord, .leftParen, .semicolon, .semicolon, .rightParen, .nullWord, .semicolon]
  | .returnStatement => [.returnWord, .semicolon]
  | .block => [.leftBrace, .rightBrace]
  | .declaration | .statement | .expressionStatement => [.nullWord, .semicolon]
  | .matching => [.matchWord, .nullWord, .leftBrace, .rightBrace]
  | _ => [.nullWord]

/-- A token of a kind. -/
def sample : Kind → Token
  | .identifier => someName
  | kind => fixed kind

/-- A list of tokens that is a phrase. -/
def closing (phrase : Phrase) : List Token :=
  (closingKinds phrase).map sample

theorem closing_written (phrase : Phrase) : Written (closing phrase) := by
  have known : ∀ kind ∈ closingKinds phrase, kind.isFixed ∨ kind = .identifier := by
    cases phrase <;> decide
  unfold closing
  generalize closingKinds phrase = kinds at known
  induction kinds with
  | nil => exact .nil
  | cons kind kinds ih =>
    have rest : Written (kinds.map sample) := ih fun kind member => known kind (by simp [member])
    rcases known kind (by simp) with isFixed | rfl
    · have same : sample kind = fixed kind := by
        cases kind <;> first | rfl | cases isFixed
      rw [List.map_cons, same]
      exact .symbol isFixed rest
    · exact .append someName_written rest

theorem null_derives : Derives .primary beforeElse [fixed .nullWord] (.literal 1 .null) :=
  .constant rfl

theorem null_expression : Derives .expression beforeElse [fixed .nullWord] (.literal 1 .null) :=
  null_derives.standing 8 (by decide)

theorem null_statement : Derives .expressionStatement beforeElse [fixed .nullWord, fixed .semicolon]
    (.exprStmt 1 (.literal 1 .null)) :=
  .expressionStatement null_expression rfl

theorem closing_derives (phrase : Phrase) : ∃ node, Derives phrase false (closing phrase) node := by
  have statement : Derives .statement false [fixed .nullWord, fixed .semicolon] _ :=
    null_statement.standing 1 (by decide)
  have noInitializer : ([] : List Token) ≠ [] →
      Derives .variableDeclaration false ([] ++ [fixed .semicolon]) .absent := by simp
  have noClause : ([] : List Token) ≠ [] → Derives .expression false [] .absent := by simp
  have noParts : ∀ part ∈ ([] : List (List Token × Node)), Derives .declaration false part.1 part.2 := by
    simp
  have block : Derives .block false (fixed .leftBrace :: [] ++ [fixed .rightBrace]) _ :=
    .block rfl [] noParts rfl
  cases phrase with
  | declaration => exact ⟨_, null_statement.standing 2 (by decide)⟩
  | statement => exact ⟨_, statement⟩
  | expressionStatement => exact ⟨_, null_statement⟩
  | variableDeclaration => exact ⟨_, .uninitialized rfl rfl rfl⟩
  | functionDeclaration =>
    have noParams : ∀ param ∈ ([] : List Token), param.kind = .identifier := by simp
    have function : Derives .functionDeclaration false (fixed .fnWord :: someName :: fixed .leftParen ::
        [] ++ fixed .rightParen :: (fixed .leftBrace :: [] ++ [fixed .rightBrace])) _ :=
      .function rfl rfl rfl [] noParams .none rfl block
    exact ⟨_, function⟩
  | printStatement => exact ⟨_, .print rfl null_expression rfl⟩
  | ifStatement => exact ⟨_, .ifOnly rfl rfl null_expression rfl statement⟩
  | whileStatement => exact ⟨_, .whileLoop rfl rfl null_expression rfl statement⟩
  | forStatement =>
    have loop : Derives .forStatement false (fixed .forWord :: fixed .leftParen :: [] ++
        fixed .semicolon :: [] ++ fixed .semicolon :: [] ++ fixed .rightParen ::
        [fixed .nullWord, fixed .semicolon]) _ :=
      .forLoop rfl rfl List.mem_cons_self noInitializer rfl noClause rfl noClause rfl statement
    exact ⟨_, loop⟩
  | returnStatement => exact ⟨_, .bareReturn rfl rfl⟩
  | block => exact ⟨_, block⟩
  | matching =>
    have noArms : ∀ part : Arm → List Token × Node, ∀ arm ∈ ([] : List Arm),
        Derives .expression false (part arm).1 (part arm).2 := by simp
    have matching : Derives .matching false (fixed .matchWord :: [fixed .nullWord] ++
        fixed .leftBrace :: [] ++ [] ++ [fixed .rightBrace]) _ :=
      .matching rfl null_expression rfl [] (noArms fun arm => (arm.pattern, arm.patternNode))
        (noArms fun arm => (arm.body, arm.bodyNode)) .none (.inl rfl) rfl
    exact ⟨_, matching⟩
  | _ => exact ⟨_, null_derives.standing 8 (by decide)⟩

/-- The parsers of all phrases can be carried on. -/
def ResumesAll (limit : Nat) (parse : Phrase → Parse Node) (twin : Nat → Phrase → Parse Node) : Prop :=
  ∀ phrase : Phrase, Resumes limit limit true (closing phrase) (parse phrase)
    (fun more => twin more phrase) (Stops phrase false)

section

variable {limit : Nat} {parse : Phrase → Parse Node} {twin : Nat → Phrase → Parse Node}
variable {stops : Token → Prop}

theorem moreParams_resumes (found : Array String) (turns : Nat) :
    Resumes limit turns false [] (moreParams found turns) (fun more => moreParams found (turns + more))
      (Ends .rightParen) := by
  have free : ∀ next, Ends .rightParen next → next.kind ∉ [Kind.comma] :=
    fun next ends => ends.free (by decide)
  induction turns generalizing found with
  | zero => exact .spent (fun _ => moreParams found) (fun _ => .pure) fun _ _ => .absent .pure free
  | succ turns ih =>
    simp only [Nat.add_right_comm]
    exact .accept (by simp) (fun _ => .last (fun _ _ => trivial) (.name _) (fun _ => ih _)
      (Nat.le_succ turns)) .pure free (.inr rfl) (.inl rfl) (Nat.le_refl _)

theorem params_resumes : Resumes limit limit false [] (params limit)
    (fun more => params (limit + more)) (Ends .rightParen) :=
  .unless (fun _ ends => ends) .pure (.last (fun _ _ => trivial) (.name _)
    (fun _ => moreParams_resumes _ limit) (Nat.le_succ limit))

theorem moreArguments_resumes (all : ResumesAll limit parse twin) (found : Array Node)
    (bounded : turns ≤ limit) :
    Resumes limit turns false [] (moreArguments parse found turns)
      (fun more => moreArguments (twin more) found (turns + more)) (Ends .rightParen) := by
  have free : ∀ next, Ends .rightParen next → next.kind ∉ [Kind.comma] :=
    fun next ends => ends.free (by decide)
  induction turns generalizing found with
  | zero =>
    exact .spent (fun more => moreArguments (twin more) found) (fun _ => .pure)
      fun _ _ => .absent .pure free
  | succ turns ih =>
    have room := Nat.le_of_succ_le bounded
    simp only [Nat.add_right_comm]
    exact .accept (by simp) (fun _ => .last (fun _ ends => .of_kind ends (by decide))
      ((all .expression).mono room) (fun _ => ih _ room) (Nat.le_succ turns)) .pure free (.inr rfl)
      (.inl rfl) (Nat.le_refl _)

theorem arguments_resumes (all : ResumesAll limit parse twin) :
    Resumes limit limit false [] (arguments parse limit)
      (fun more => arguments (twin more) (limit + more)) (Ends .rightParen) :=
  .unless (fun _ ends => ends) .pure (.last (fun _ ends => .of_kind ends (by decide)) (all .expression)
    (fun _ => moreArguments_resumes all _ (Nat.le_refl limit)) (Nat.le_succ limit))

theorem callRest_resumes (all : ResumesAll limit parse twin) (callee : Node) (bounded : turns ≤ limit) :
    Resumes limit turns false [] (callRest parse limit callee turns)
      (fun more => callRest (twin more) (limit + more) callee (turns + more)) (Stops .call false) := by
  have free : ∀ next, Stops .call false next → next.kind ∉ [Kind.leftParen] :=
    fun next ends => ends.1
  induction turns generalizing callee with
  | zero =>
    exact .spent (fun more => callRest (twin more) (limit + more) callee) (fun _ => .pure)
      fun _ _ => .absent .pure free
  | succ turns ih =>
    have room := Nat.le_of_succ_le bounded
    simp only [Nat.add_right_comm]
    exact .accept (by simp) (fun paren => .upTo (.inr rfl) rfl (Ends.fixed _)
      ((arguments_resumes all).mono room) fun given _ => ih _ room) .pure free (.inr rfl) (.inl rfl)
      (Nat.le_refl _)

theorem chainRest_resumes {phrase operand : Phrase} (all : ResumesAll limit parse twin)
    (level : operand ∈ alternatives phrase) (levelled : operators phrase ≠ []) (left : Node)
    (bounded : turns ≤ limit) :
    Resumes limit turns false [] (chainRest parse operand (operators phrase) left turns)
      (fun more => chainRest (twin more) operand (operators phrase) left (turns + more))
      (Stops phrase false) := by
  have known := continuations_level phrase levelled operand level
  have free : ∀ next, Stops phrase false next → next.kind ∉ operators phrase :=
    fun next ends listed => ends.1 (known _ listed).2.2.2
  have real : Kind.endOfInput ∉ operators phrase := fun listed => (known _ listed).1 rfl
  induction turns generalizing left with
  | zero =>
    exact .spent (fun more => chainRest (twin more) operand (operators phrase) left) (fun _ => .pure)
      fun _ _ => .absent .pure free
  | succ turns ih =>
    have room := Nat.le_of_succ_le bounded
    simp only [Nat.add_right_comm]
    exact .accept real (fun _ => .last (fun _ ends => ends.alternative level)
      ((all operand).mono room) (fun right => ih _ room) (Nat.le_succ turns)) .pure free (.inr rfl)
      (.inl rfl) (Nat.le_refl _)

theorem arm_resumes (all : ResumesAll limit parse twin) :
    Resumes limit limit true ([fixed .caseWord] ++ ([fixed .nullWord] ++ ([fixed .arrow] ++
      [fixed .nullWord]))) (arm parse) (fun more => arm (twin more)) (Stops .expression false) :=
  .after (.inl rfl) (.mark rfl _) fun _ => .upTo (.inl rfl) rfl (.of_kind rfl (by decide))
    (all .expression) fun _ _ => .last (fun _ ends => ends) (all .expression)
    (fun _ => .pure) (Nat.le_succ limit)

theorem arms_resumes (all : ResumesAll limit parse twin) (found : Array Node) (bounded : turns ≤ limit) :
    Resumes limit turns false [] (arms parse found turns)
      (fun more => arms (twin more) found (turns + more)) (Ends .rightBrace) := by
  have free : ∀ next, Ends .rightBrace next → next.kind ∉ [Kind.comma] :=
    fun next ends => ends.free (by decide)
  induction turns generalizing found with
  | zero =>
    exact .spent (fun more => arms (twin more) found) (fun _ => .pure)
      fun _ _ => .unless (fun _ ends => ends) .pure
  | succ turns ih =>
    have room := Nat.le_of_succ_le bounded
    simp only [Nat.add_right_comm]
    exact .unless (fun _ ends => ends) .pure (.last (fun _ ends => .of_kind ends (by decide))
      ((arm_resumes all).mono bounded) (fun next => .accept (by simp) (fun _ => ih _ room)
        .pure free (.inr rfl) (.inr rfl) (Nat.le_succ turns)) (Nat.le_refl _))

theorem declarations_run (parse : Phrase → Parse Node) (found : Array Node) (turns : Nat)
    (stream : Stream) : declarations parse found (turns + 1) stream =
      if stream.current.kind ∈ [Kind.rightBrace, .endOfInput] then .ok found stream
      else (parse .declaration >>= fun node => declarations parse (found.push node) turns) stream := by
  rw [declarations, bind_of_ok _ (check_run _ stream), bind_of_ok _ (check_run _ stream)]
  by_cases closes : stream.current.kind = .rightBrace <;>
    by_cases ends : stream.current.kind = .endOfInput <;> simp [closes, ends, pure_run]

theorem declarations_resumes (all : ResumesAll limit parse twin) (found : Array Node)
    (bounded : turns ≤ limit) :
    Resumes limit turns false [] (declarations parse found turns)
      (fun more => declarations (twin more) found (turns + more)) (Ends .rightBrace) := by
  have settles : ∀ found turns more, Settles (limit + more) (declarations (twin more) found turns)
      (Ends .rightBrace) [] := by
    intro found turns more stream next rest place ends
    have here : stream.current = next := Stream.current_of_remaining place.1
    cases turns with
    | zero => exact .inl ⟨found, stream, rfl, place⟩
    | succ turns =>
      rw [declarations_run, here, if_pos (by simp [show next.kind = .rightBrace from ends])]
      exact .inl ⟨found, stream, rfl, place⟩
  induction turns generalizing found with
  | zero => exact .stopped fun more => settles _ _ more
  | succ turns ih =>
    have room := Nat.le_of_succ_le bounded
    simp only [Nat.add_right_comm]
    refine ⟨fun more => settles _ _ more, .nil, fun stream terminated roomy => ?_⟩
    by_cases ended : stream.current.kind ∈ [Kind.rightBrace, .endOfInput]
    · have nothing : Resumes limit (turns + 1) false [] (pure found) (fun _ => pure found)
        (Ends .rightBrace) := .pure
      refine (nothing.start stream terminated roomy).decided ?_ (fun more twin current => ?_)
        (.inr fun more twin ends => ?_) (fun more => settles _ _ more) .nil
      · rw [declarations_run, if_pos ended, pure_run]
      · rw [declarations_run, current, if_pos ended, pure_run]
      · rw [declarations_run, if_pos (by simp [show twin.current.kind = .rightBrace from ends]), pure_run]
    · have next : Resumes limit (turns + 1) true _ (parse .declaration >>= fun node =>
          declarations parse (found.push node) turns) (fun more => twin more .declaration >>= fun node =>
          declarations (twin more) (found.push node) (turns + more)) (Ends .rightBrace) :=
        .last (fun _ ends => .of_kind ends (by decide)) ((all .declaration).mono bounded)
          (fun _ => ih _ room) (Nat.le_refl _)
      refine ((next.start stream terminated roomy).decided ?_ (fun more twin current => ?_) (.inl rfl)
        (fun more => settles _ _ more) .nil).weaken (by simp)
      · rw [declarations_run, if_neg ended]
      · rw [declarations_run, current, if_neg ended]

theorem expressionUnless_resumes (all : ResumesAll limit parse twin) {stop : Kind}
    (free : stop ∉ Phrase.expression.continuations ∧ stop ≠ .elseWord) :
    Resumes limit limit false [] (expressionUnless parse stop)
      (fun more => expressionUnless (twin more) stop) (Ends stop) :=
  .unless (fun _ ends => ends) .pure ((all .expression).narrow fun _ ends => .of_kind ends free)

theorem forInitializer_resumes (all : ResumesAll limit parse twin) :
    Resumes limit limit true (closing .expressionStatement) (forInitializer parse)
      (fun more => forInitializer (twin more)) (Stops .expressionStatement false) := by
  have nothing : Resumes limit limit false [] (pure .absent : Parse Node) (fun _ => pure .absent)
      (Stops .expressionStatement false) := .pure
  have declared : Resumes limit limit true (closing .variableDeclaration) (parse .variableDeclaration)
      (fun more => twin more .variableDeclaration) (Stops .expressionStatement false) :=
    all .variableDeclaration
  have notVar : (fixed .nullWord).kind ≠ .varWord := by decide
  have present : (fixed .nullWord).kind ∉ [Kind.semicolon] := by decide
  exact .accept (by simp) (fun _ => nothing)
    (.branch declared (all .expressionStatement) fun _ _ => notVar) (fun _ _ => present) (.inl rfl)
    (.inr rfl) (Nat.le_succ limit)

theorem variableDeclarationBody_resumes (all : ResumesAll limit parse twin) :
    ∃ closing, Resumes limit limit true closing (variableDeclarationBody parse)
      (fun more => variableDeclarationBody (twin more)) stops := by
  have nothing : Resumes limit limit false [] (pure .absent : Parse Node) (fun _ => pure .absent)
      (Ends .semicolon) := .pure
  have noEquals : (fixed .semicolon).kind ∉ [Kind.assign] := by decide
  exact ⟨_, .after (.inl rfl) (.mark rfl _) fun _ => .after (.inl rfl) (.name _) fun _ =>
    .accept (by simp) (fun _ => .upTo (.inr rfl) rfl (.of_kind rfl (by decide)) (all .expression)
      fun _ _ => .pure) (.upTo (.inr rfl) rfl (Ends.fixed _) nothing fun _ _ => .pure)
      (fun _ _ => noEquals) (.inl rfl) (.inl rfl) (Nat.le_succ limit)⟩

theorem noteFunction_resumes (name : String) (arity : Nat) :
    Resumes limit limit false [] (noteFunction name arity) (fun _ => noteFunction name arity) stops where
  settles _ _ _ _ place _ := .inl ⟨(), _, rfl, place⟩
  written := .nil
  start stream _ _ := by
    refine ⟨fun value after success => ?_, fun _ _ _ _ failed => by cases failed⟩
    cases success
    exact ⟨[], rfl, by simp, fun more _ _ _ place _ => ⟨_, rfl, place⟩⟩

theorem functionDeclarationBody_resumes (all : ResumesAll limit parse twin) :
    ∃ closing, Resumes limit limit true closing (functionDeclarationBody parse limit)
      (fun more => functionDeclarationBody (twin more) (limit + more))
      (Stops .functionDeclaration false) :=
  ⟨_, .after (.inl rfl) (.mark rfl _) fun _ => .after (.inl rfl) (.name _) fun _ =>
    .after (.inl rfl) (.mark rfl _) fun _ => .upTo (.inl rfl) rfl (Ends.fixed _) params_resumes
    fun _ _ => .last (fun _ ends => ends) (all .block) (fun _ =>
      .last (fun _ ends => ends) (noteFunction_resumes _ _) (fun _ => .pure) (Nat.le_refl limit))
      (Nat.le_succ limit)⟩

theorem printStatementBody_resumes (all : ResumesAll limit parse twin) :
    ∃ closing, Resumes limit limit true closing (printStatementBody parse)
      (fun more => printStatementBody (twin more)) stops :=
  ⟨_, .after (.inl rfl) (.mark rfl _) fun _ =>
    .upTo (.inr rfl) rfl (.of_kind rfl (by decide)) (all .expression) fun _ _ => .pure⟩

theorem ifStatementBody_resumes (all : ResumesAll limit parse twin) :
    ∃ closing, Resumes limit limit true closing (ifStatementBody parse)
      (fun more => ifStatementBody (twin more)) (Stops .ifStatement false) :=
  ⟨_, .after (.inl rfl) (.mark rfl _) fun _ => .after (.inl rfl) (.mark rfl _) fun _ =>
    .upTo (.inl rfl) rfl (.of_kind rfl (by decide)) (all .expression) fun _ _ =>
    .last (fun _ ends => ends) (all .statement) (fun _ => .accept (by simp)
      (fun _ => .last (fun _ ends => ends) (all .statement) (fun _ => .pure) (Nat.le_succ limit))
      .pure (fun next ends => by simpa using ends.2 rfl) (.inr rfl) (.inl rfl) (Nat.le_succ limit))
      (Nat.le_succ limit)⟩

theorem whileStatementBody_resumes (all : ResumesAll limit parse twin) :
    ∃ closing, Resumes limit limit true closing (whileStatementBody parse)
      (fun more => whileStatementBody (twin more)) (Stops .whileStatement false) :=
  ⟨_, .after (.inl rfl) (.mark rfl _) fun _ => .after (.inl rfl) (.mark rfl _) fun _ =>
    .upTo (.inl rfl) rfl (.of_kind rfl (by decide)) (all .expression) fun _ _ =>
    .last (fun _ ends => ends) (all .statement) (fun _ => .pure) (Nat.le_succ limit)⟩

theorem forStatementBody_resumes (all : ResumesAll limit parse twin) :
    ∃ closing, Resumes limit limit true closing (forStatementBody parse)
      (fun more => forStatementBody (twin more)) (Stops .forStatement false) := by
  have started : Stops .expressionStatement false (fixed .semicolon) := .of_kind rfl (by decide)
  exact ⟨_, .after (.inl rfl) (.mark rfl _) fun _ => .after (.inl rfl) (.mark rfl _) fun _ =>
    .bind (forInitializer_resumes all) (fun _ =>
      .upTo (.inl rfl) rfl (Ends.fixed _) (expressionUnless_resumes all (by decide)) fun _ _ =>
      .upTo (.inl rfl) rfl (Ends.fixed _) (expressionUnless_resumes all (by decide)) fun _ _ =>
      .last (fun _ ends => ends) (all .statement) (fun _ => .pure) (Nat.le_succ limit))
    (fun _ _ => started) (.inl rfl) (Nat.le_succ limit)⟩

theorem returnStatementBody_resumes (all : ResumesAll limit parse twin) :
    ∃ closing, Resumes limit limit true closing (returnStatementBody parse)
      (fun more => returnStatementBody (twin more)) stops :=
  ⟨_, .after (.inl rfl) (.mark rfl _) fun _ => .upTo (.inr rfl) rfl (Ends.fixed _)
    (expressionUnless_resumes all (by decide)) fun _ _ => .pure⟩

theorem blockBody_resumes (all : ResumesAll limit parse twin) :
    ∃ closing, Resumes limit limit true closing (blockBody parse limit)
      (fun more => blockBody (twin more) (limit + more)) stops :=
  ⟨_, .after (.inl rfl) (.mark rfl _) fun _ => .upTo (.inr rfl) rfl (Ends.fixed _)
    (declarations_resumes all #[] (Nat.le_refl limit)) fun _ _ => .pure⟩

theorem matchingBody_resumes (all : ResumesAll limit parse twin) :
    ∃ closing, Resumes limit limit true closing (matchingBody parse limit)
      (fun more => matchingBody (twin more) (limit + more)) stops :=
  ⟨_, .after (.inl rfl) (.mark rfl _) fun _ => .upTo (.inl rfl) rfl (.of_kind rfl (by decide))
    (all .expression) fun _ _ => .upTo (.inr rfl) rfl (Ends.fixed _)
    (arms_resumes all #[] (Nat.le_refl limit)) fun _ _ => .pure⟩

theorem assignmentBody_resumes (all : ResumesAll limit parse twin) :
    ∃ closing, Resumes limit limit true closing (assignmentBody parse)
      (fun more => assignmentBody (twin more)) (Stops .assignment false) :=
  ⟨_, .last (fun _ ends => ends.alternative (by decide)) (all .equality) (fun target => .accept (by simp)
      (fun _ => .last (fun _ ends => ends) (all .assignment) (fun _ => by
        cases target <;> first | exact .pure | exact .wrongTarget _) (Nat.le_succ limit))
      .pure (fun _ ends isAssign => ends.1 (List.mem_cons.mpr (.inl (List.mem_singleton.mp isAssign))))
      (.inr rfl) (.inl rfl) (Nat.le_succ limit)) (Nat.le_succ limit)⟩

theorem unaryBody_resumes (all : ResumesAll limit parse twin) :
    ∃ closing, Resumes limit limit true closing (unaryBody parse)
      (fun more => unaryBody (twin more)) (Stops .unary false) := by
  have noOperator : (fixed .nullWord).kind ∉ [Kind.bang, .minus] := by decide
  exact ⟨_, .accept (by simp) (fun _ => .last (fun _ ends => ends) (all .unary) (fun _ => .pure)
      (Nat.le_succ limit)) ((all .call).narrow fun _ ends => ends.alternative (by decide))
      (fun _ _ => noOperator) (.inl rfl) (.inl rfl) (Nat.le_succ limit)⟩

theorem chain_resumes {phrase operand : Phrase} (all : ResumesAll limit parse twin)
    (level : operand ∈ alternatives phrase) (levelled : operators phrase ≠ []) :
    ∃ closing, Resumes limit limit true closing (body parse limit phrase)
      (fun more => body (twin more) (limit + more) phrase) (Stops phrase false) := by
  simp only [body_eq_chain _ _ level levelled]
  exact ⟨_, .last (fun _ ends => ends.alternative level) (all operand)
    (fun first => chainRest_resumes all level levelled first (Nat.le_refl limit)) (Nat.le_succ limit)⟩

theorem callBody_resumes (all : ResumesAll limit parse twin) :
    ∃ closing, Resumes limit limit true closing (callBody parse limit)
      (fun more => callBody (twin more) (limit + more)) (Stops .call false) :=
  ⟨_, .last (fun _ ends => ends.alternative (by decide)) (all .primary)
    (fun callee => callRest_resumes all callee (Nat.le_refl limit)) (Nat.le_succ limit)⟩

/-- What is done depends on the current token. -/
theorem ResumesFrom.ofCurrent {rest : Token → Parse Node} {rest' : Nat → Token → Parse Node}
    {closing : List Token} {stream : Stream}
    (chosen : ResumesFrom limit true (rest stream.current) (fun more => rest' more stream.current) stops
      stream)
    (settles : ∀ more, Settles (limit + more) (current >>= rest' more) stops closing)
    (written : Written closing) :
    ResumesFrom limit true (current >>= rest) (fun more => current >>= rest' more) stops stream := by
  refine chosen.decided (bind_of_ok _ (current_run stream)) (fun more other same => ?_) (.inl rfl)
    settles written
  rw [bind_of_ok _ (current_run other), same]

/-- A token that no primary expression starts with is unexpected. -/
theorem primaryBody_unexpected (parse : Phrase → Parse Node) {stream : Stream}
    (closed : stream.current.kind ∉ openers .primary) :
    primaryBody parse stream =
      .error (.expected .expression stream.current (Wanted.expression.complaint "")) stream := by
  rw [primaryBody, bind_of_ok _ (current_run stream)]
  generalize stream.current.kind = kind at closed
  cases kind <;> first | rfl | exact absurd closed (by decide)

theorem primaryBody_resumes {closing : List Token} (all : ResumesAll limit parse twin)
    (settles : ∀ more, Settles (limit + more) (primaryBody (twin more)) (Stops .primary false) closing)
    (written : Written closing) {stream : Stream} (terminated : stream.Terminated)
    (roomy : stream.remaining.length ≤ limit) :
    ResumesFrom limit true (primaryBody parse) (fun more => primaryBody (twin more))
      (Stops .primary false) stream := by
  by_cases opens : stream.current.kind ∈ openers .primary
  · refine .ofCurrent ?_ settles written
    have reads : stream.current.kind ≠ .endOfInput → ∀ {takes : Bool} {further : List Token}
        {rest : Token → Parse Node} {rest' : Nat → Token → Parse Node},
        (∀ token, Resumes limit limit takes further (rest token) (fun more => rest' more token)
          (Stops .primary false)) → takes ∨ further = [] →
        ResumesFrom limit true (advance >>= rest) (fun more => advance >>= rest' more)
          (Stops .primary false) stream :=
      fun real _ _ _ _ goes sees => .afterCurrent terminated real roomy goes sees (Nat.le_succ limit)
    generalize stream.current.kind = kind at opens reads
    split
    case h_1 =>
      split
      · exact reads (by simp) (fun _ => .pure) (.inr rfl)
      · exact .failed rfl (by simp)
    case h_6 =>
      exact reads (by simp) (fun _ => .upTo (.inr rfl) rfl (.of_kind rfl (by decide)) (all .expression)
        fun _ _ => .pure) (.inl rfl)
    case h_7 => exact (all .matching).start stream terminated roomy
    case h_8 => exact absurd opens (by simp_all [openers, primaryOpeners])
    all_goals exact reads (by simp) (fun _ => .pure) (.inr rfl)
  · have failed := primaryBody_unexpected parse opens
    refine ⟨fun value after success => ?_, fun wanted found text reached wrong => ?_⟩
    · rw [failed] at success
      cases success
    · rw [failed] at wrong
      cases wrong
      exact ⟨rfl, [], closing, rfl, written, settles⟩

/-- The first token of a declaration, or of a statement, decides which one is read. -/
theorem dispatch_resumes {rest : Token → Parse Node} {rest' : Nat → Token → Parse Node}
    {closing : List Token} {stream : Stream} (all : ResumesAll limit parse twin)
    (chosen : ∃ phrase : Phrase, rest stream.current = parse phrase ∧
      (fun more => rest' more stream.current) = (fun more => twin more phrase) ∧
      ∀ next, stops next → Stops phrase false next)
    (settles : ∀ more, Settles (limit + more) (current >>= rest' more) stops closing)
    (written : Written closing) (terminated : stream.Terminated)
    (roomy : stream.remaining.length ≤ limit) :
    ResumesFrom limit true (current >>= rest) (fun more => current >>= rest' more) stops stream := by
  obtain ⟨phrase, same, sameTwin, implies⟩ := chosen
  refine .ofCurrent ?_ settles written
  rw [same, sameTwin]
  exact ((all phrase).narrow implies).start stream terminated roomy

/-- An expression and the semicolon after it. -/
theorem semicolon_resumes (all : ResumesAll limit parse twin) (message : String) (make : Node → Node) :
    ∃ further, Resumes limit limit true further
      (do let node ← parse .expression; let _ ← expect .semicolon message; return make node)
      (fun more => do
        let node ← twin more .expression
        let _ ← expect .semicolon message
        return make node) stops :=
  ⟨_, .upTo (.inr rfl) rfl (.of_kind rfl (by decide)) (all .expression) fun _ _ => .pure⟩

/-- If the parsers of all phrases can be carried on, so can those one level above them. -/
theorem body_resumes (all : ResumesAll limit parse twin)
    (settles : ∀ phrase : Phrase, ∀ more, Settles (limit + more)
      (body (twin more) (limit + more) phrase) (Stops phrase false) (closing phrase)) :
    ResumesAll limit (body parse limit) (fun more => body (twin more) (limit + more)) := by
  intro phrase
  have settles := settles phrase
  have written := closing_written phrase
  cases phrase with
  | declaration | statement =>
    refine ⟨settles, written, fun stream terminated roomy => ?_⟩
    refine dispatch_resumes all ?_ settles written terminated roomy
    generalize stream.current.kind = kind
    cases kind <;> exact ⟨_, rfl, rfl, fun _ stops => stops⟩
  | variableDeclaration => exact .close (variableDeclarationBody_resumes all) settles written
  | functionDeclaration => exact .close (functionDeclarationBody_resumes all) settles written
  | printStatement => exact .close (printStatementBody_resumes all) settles written
  | ifStatement => exact .close (ifStatementBody_resumes all) settles written
  | whileStatement => exact .close (whileStatementBody_resumes all) settles written
  | forStatement => exact .close (forStatementBody_resumes all) settles written
  | returnStatement => exact .close (returnStatementBody_resumes all) settles written
  | block => exact .close (blockBody_resumes all) settles written
  | expressionStatement =>
    refine ⟨settles, written, fun stream terminated roomy => .ofCurrent ?_ settles written⟩
    obtain ⟨further, ended⟩ := semicolon_resumes all "Expected ';' after expression"
      (.exprStmt stream.current.line)
    exact ended.start stream terminated roomy
  | expression => exact (all .assignment).narrow fun _ stops => stops.alternative (by decide)
  | assignment => exact .close (assignmentBody_resumes all) settles written
  | equality | comparison | term | factor =>
    exact .close (chain_resumes all List.mem_cons_self (by decide)) settles written
  | unary => exact .close (unaryBody_resumes all) settles written
  | call => exact .close (callBody_resumes all) settles written
  | primary =>
    exact ⟨settles, written, fun _ terminated roomy =>
      primaryBody_resumes all settles written terminated roomy⟩
  | matching => exact .close (matchingBody_resumes all) settles written

end

/-- No closing has more than seven tokens. -/
theorem closing_short (phrase : Phrase) : 10 * (closing phrase).length + phrase.rank < 80 := by
  have short : 10 * (closingKinds phrase).length + phrase.rank < 80 := by
    cases phrase <;> decide
  rwa [closing, List.length_map]

theorem closing_settles (turns : Nat) (enough : 80 ≤ depth + 1) (phrase : Phrase) :
    Settles turns (body (parseWithin turns depth) turns phrase) (Stops phrase false) (closing phrase) := by
  obtain ⟨node, derivation⟩ := closing_derives phrase
  have short := closing_short phrase
  exact (derivation.complete turns depth (by omega)).reads.settles

/-- With a depth limit that is higher by eighty, every phrase can be carried on. -/
theorem parseWithin_resumes (limit depth : Nat) :
    ResumesAll limit (parseWithin limit depth)
      (fun more => parseWithin (limit + more) (depth + 80)) := by
  induction depth with
  | zero =>
    intro phrase
    have enough : 80 ≤ 79 + 1 := Nat.le_refl 80
    refine ⟨fun more => closing_settles _ enough phrase, closing_written phrase, fun _ _ _ => ?_⟩
    exact .failed rfl (by simp)
  | succ depth ih =>
    rw [Nat.add_right_comm]
    exact body_resumes ih fun phrase more => closing_settles _ (by omega) phrase

end Scriptlet.Grammar
