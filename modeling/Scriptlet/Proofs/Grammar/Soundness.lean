import Scriptlet.Proofs.Grammar.StatementSoundness

/-! Whatever expression the parser reads is derived by the grammar, and so is every phrase, at any
depth limit. -/
namespace Scriptlet.Grammar

open Scriptlet.Action Parse Phrase

variable {phrase inner : Phrase} {stream after : Stream} {node : Node}

section

variable {parse : Phrase → Parse Node} {turns : Nat}

theorem assignmentBody_sound (sound : Sound parse) (terminated : stream.Terminated)
    (success : assignmentBody parse stream = .ok node after) :
    Parsed .assignment stream node after := by
  simp only [assignmentBody, bind_eq_ok] at success
  obtain ⟨target, _, atTarget, equals?, _, atEquals, success⟩ := success
  have parsed := sound terminated atTarget
  cases equals? with
  | none =>
    obtain ⟨-, rfl⟩ := accept_none atEquals
    obtain ⟨rfl, rfl⟩ := pure_eq_ok.mp success
    exact parsed.alternative (by simp [alternatives])
  | some equals =>
    obtain ⟨isAssign, readEquals⟩ :=
      accept_some_consumes (parsed.terminated terminated) atEquals (by decide)
    obtain ⟨value, _, atValue, success⟩ := bind_eq_ok.mp success
    obtain ⟨targetSpan, targetSplit, targetDerivation⟩ := parsed.anywhere
    obtain ⟨span, split, derivation⟩ := sound readEquals.terminated atValue
    split at success
    · obtain ⟨rfl, rfl⟩ := pure_eq_ok.mp success
      refine ⟨targetSpan ++ equals :: span, ?_,
        .assignment targetDerivation (by simpa using isAssign) derivation⟩
      simp [targetSplit, readEquals.remaining, split]
    · exact absurd success (throw_ne_ok _)

/-- The loop over the operators of one level keeps a derivation of what stands to their left. -/
theorem chainRest_sound {operand : Phrase} {start : Stream} {left : Node} (sound : Sound parse)
    (level : operand ∈ phrase.alternatives) (terminated : stream.Terminated)
    (parsed : Parsed phrase start left stream)
    (success : chainRest parse operand phrase.operators left turns stream = .ok node after) :
    Parsed phrase start node after := by
  have noEnd : Kind.endOfInput ∉ phrase.operators := by cases phrase <;> decide
  induction turns generalizing stream left with
  | zero =>
    obtain ⟨rfl, rfl⟩ := pure_eq_ok.mp success
    exact parsed
  | succ turns ih =>
    simp only [chainRest, bind_eq_ok] at success
    obtain ⟨operator?, _, atOperator, success⟩ := success
    cases operator? with
    | none =>
      obtain ⟨-, rfl⟩ := accept_none atOperator
      obtain ⟨rfl, rfl⟩ := pure_eq_ok.mp success
      exact parsed
    | some operator =>
      obtain ⟨listed, readOperator⟩ := accept_some_consumes terminated atOperator noEnd
      obtain ⟨right, _, atRight, success⟩ := bind_eq_ok.mp success
      have parsedRight := sound readOperator.terminated atRight
      have ended := parsedRight.terminated readOperator.terminated
      obtain ⟨leftSpan, leftSplit, leftDerivation⟩ := parsed.anywhere
      obtain ⟨span, split, derivation⟩ := parsedRight
      refine ih ended ?_ success
      refine ⟨leftSpan ++ operator :: span, ?_, .binary level leftDerivation listed derivation⟩
      simp [leftSplit, readOperator.remaining, split]

theorem chain_sound {operand : Phrase} (sound : Sound parse) (level : operand ∈ phrase.alternatives)
    (terminated : stream.Terminated)
    (success : chain parse operand phrase.operators turns stream = .ok node after) :
    Parsed phrase stream node after := by
  obtain ⟨first, _, atFirst, success⟩ := bind_eq_ok.mp success
  have parsed := sound terminated atFirst
  exact chainRest_sound sound level (parsed.terminated terminated) (parsed.alternative level) success

theorem unaryBody_sound (sound : Sound parse) (terminated : stream.Terminated)
    (success : unaryBody parse stream = .ok node after) : Parsed .unary stream node after := by
  simp only [unaryBody, bind_eq_ok] at success
  obtain ⟨operator?, _, atOperator, success⟩ := success
  cases operator? with
  | none =>
    obtain ⟨-, rfl⟩ := accept_none atOperator
    exact (sound terminated success).alternative (by simp [alternatives])
  | some operator =>
    obtain ⟨listed, readOperator⟩ := accept_some_consumes terminated atOperator (by decide)
    simp only [bind_eq_ok, pure_eq_ok] at success
    obtain ⟨operand, _, atOperand, rfl, rfl⟩ := success
    obtain ⟨span, split, derivation⟩ := sound readOperator.terminated atOperand
    exact ⟨operator :: span, by simp [readOperator.remaining, split], .unary listed derivation⟩

theorem moreArguments_sound {found nodes : Array Node} (sound : Sound parse)
    (terminated : stream.Terminated)
    (success : moreArguments parse found turns stream = .ok nodes after) :
    ∃ parts : List (List Token × Node),
      (∀ part ∈ parts, Derives .expression false part.1 part.2) ∧
      nodes.toList = found.toList ++ parts.map Prod.snd ∧ Tail Prod.fst stream parts after := by
  induction turns generalizing stream found with
  | zero =>
    obtain ⟨rfl, rfl⟩ := pure_eq_ok.mp success
    exact ⟨[], by simp, by simp, .none⟩
  | succ turns ih =>
    simp only [moreArguments, bind_eq_ok] at success
    obtain ⟨comma?, _, atComma, success⟩ := success
    cases comma? with
    | none =>
      obtain ⟨-, rfl⟩ := accept_none atComma
      obtain ⟨rfl, rfl⟩ := pure_eq_ok.mp success
      exact ⟨[], by simp, by simp, .none⟩
    | some comma =>
      obtain ⟨argument, _, atArgument, success⟩ := bind_eq_ok.mp success
      obtain ⟨isComma, readComma⟩ := accept_some_consumes terminated atComma (by decide)
      have parsed := sound readComma.terminated atArgument
      obtain ⟨span, split, derivation⟩ := parsed.anywhere
      obtain ⟨parts, each, listed, tail⟩ := ih (parsed.terminated readComma.terminated) success
      refine ⟨(span, argument) :: parts, by simpa [derivation] using each, by simp [listed], ?_⟩
      exact tail.more (by simpa using isComma) readComma split

theorem arguments_sound {nodes : Array Node} (sound : Sound parse) (terminated : stream.Terminated)
    (success : arguments parse turns stream = .ok nodes after) :
    ∃ (parts : List (List Token × Node)) (inner : List Token),
      stream.remaining = inner ++ after.remaining ∧
      (∀ part ∈ parts, Derives .expression false part.1 part.2) ∧
      nodes.toList = parts.map Prod.snd ∧ Separated .comma (parts.map Prod.fst) inner := by
  rw [arguments, bind_of_ok _ (check_run _ _)] at success
  split at success
  · obtain ⟨rfl, rfl⟩ := pure_eq_ok.mp success
    exact ⟨[], [], by simp, by simp, by simp, .none⟩
  · obtain ⟨first, _, atFirst, success⟩ := bind_eq_ok.mp success
    have parsed := sound terminated atFirst
    obtain ⟨span, split, derivation⟩ := parsed.anywhere
    obtain ⟨parts, each, listed, inner, restSplit, joined⟩ :=
      moreArguments_sound sound (parsed.terminated terminated) success
    refine ⟨(span, first) :: parts, span ++ inner, by simp [split, restSplit],
      by simpa [derivation] using each, by simp [listed], .some joined⟩

/-- The loop over argument lists keeps a derivation of the callee read so far. -/
theorem callRest_sound {start : Stream} {callee : Node} (sound : Sound parse)
    (terminated : stream.Terminated) (parsed : Parsed .call start callee stream)
    (success : callRest parse limit callee turns stream = .ok node after) :
    Parsed .call start node after := by
  induction turns generalizing stream callee with
  | zero =>
    obtain ⟨rfl, rfl⟩ := pure_eq_ok.mp success
    exact parsed
  | succ turns ih =>
    simp only [callRest, bind_eq_ok] at success
    obtain ⟨opener?, _, atOpener, success⟩ := success
    cases opener? with
    | none =>
      obtain ⟨-, rfl⟩ := accept_none atOpener
      obtain ⟨rfl, rfl⟩ := pure_eq_ok.mp success
      exact parsed
    | some opener =>
      obtain ⟨opens, readOpener⟩ := accept_some_consumes terminated atOpener (by decide)
      simp only [bind_eq_ok] at success
      obtain ⟨nodes, _, atNodes, closer, _, atCloser, success⟩ := success
      obtain ⟨parts, inner, split, each, listed, joined⟩ :=
        arguments_sound sound readOpener.terminated atNodes
      obtain ⟨closes, readCloser⟩ :=
        expect_consumes (readOpener.terminated.of_suffix split) atCloser (by decide)
      obtain ⟨calleeSpan, calleeSplit, calleeDerivation⟩ := parsed.anywhere
      refine ih readCloser.terminated ?_ success
      refine ⟨calleeSpan ++ opener :: inner ++ [closer], ?_, ?_⟩
      · simp [calleeSplit, readOpener.remaining, split, readCloser.remaining]
      · rw [listed]
        exact .call calleeDerivation (by simpa using opens) parts each joined closes

theorem callBody_sound (sound : Sound parse) (terminated : stream.Terminated)
    (success : callBody parse turns stream = .ok node after) : Parsed .call stream node after := by
  obtain ⟨callee, _, atCallee, success⟩ := bind_eq_ok.mp success
  have parsed := sound terminated atCallee
  exact callRest_sound sound (parsed.terminated terminated)
    (parsed.alternative (by simp [alternatives])) success

theorem primaryBody_sound (sound : Sound parse) (terminated : stream.Terminated)
    (success : primaryBody parse stream = .ok node after) : Parsed .primary stream node after := by
  rw [primaryBody, bind_of_ok _ (current_run stream)] at success
  have leaf {kind : Kind} {node : Node} (same : stream.current.kind = kind)
      (real : kind ≠ .endOfInput)
      (rule : Derives .primary (decide (stream.next.current.kind = .elseWord)) [stream.current] node) :
      Parsed .primary stream node stream.next :=
    ⟨[stream.current], (terminated.consumes (same ▸ real)).remaining, rule⟩
  generalize same : stream.current.kind = kind at success
  split at success
  · rw [bind_of_ok _ (advance_run stream)] at success
    generalize value : Number.read? stream.current.lexeme = number? at success
    cases number? with
    | some number =>
      obtain ⟨rfl, rfl⟩ := pure_eq_ok.mp success
      exact leaf same (by decide) (.number same value)
    | none => exact absurd success (throw_ne_ok _)
  · obtain ⟨rfl, rfl⟩ := pure_eq_ok.mp success
    exact leaf same (by decide) (.constant (by simp [same, Kind.constant?]))
  · obtain ⟨rfl, rfl⟩ := pure_eq_ok.mp success
    exact leaf same (by decide) (.constant (by simp [same, Kind.constant?]))
  · obtain ⟨rfl, rfl⟩ := pure_eq_ok.mp success
    exact leaf same (by decide) (.constant (by simp [same, Kind.constant?]))
  · obtain ⟨rfl, rfl⟩ := pure_eq_ok.mp success
    exact leaf same (by decide) (.reference same)
  · simp only [bind_of_ok _ (advance_run stream), bind_eq_ok, pure_eq_ok] at success
    obtain ⟨expression, _, atExpression, closer, _, atCloser, rfl, rfl⟩ := success
    have readOpener := terminated.consumes (by simp [same])
    have parsed := sound readOpener.terminated atExpression
    obtain ⟨closes, readCloser⟩ :=
      expect_consumes (parsed.terminated readOpener.terminated) atCloser (by decide)
    obtain ⟨span, split, derivation⟩ := parsed.anywhere
    refine ⟨stream.current :: span ++ [closer], ?_, .group same derivation closes⟩
    simp [readOpener.remaining, split, readCloser.remaining]
  · exact (sound terminated success).alternative (by simp [alternatives])
  · exact absurd success (throw_ne_ok _)

theorem arm_sound (sound : Sound parse) (terminated : stream.Terminated)
    (success : arm parse stream = .ok node after) :
    ∃ found : Arm, Derives .expression false found.pattern found.patternNode ∧
      Derives .expression false found.body found.bodyNode ∧ node = found.node ∧
      stream.remaining = found.span ++ after.remaining := by
  simp only [arm, bind_eq_ok, pure_eq_ok] at success
  obtain ⟨keyword, _, atKeyword, pattern, _, atPattern, arrow, _, atArrow, body, _, atBody, rfl,
    rfl⟩ := success
  obtain ⟨isCase, readKeyword⟩ := expect_consumes terminated atKeyword (by decide)
  have parsed := sound readKeyword.terminated atPattern
  obtain ⟨isArrow, readArrow⟩ :=
    expect_consumes (parsed.terminated readKeyword.terminated) atArrow (by decide)
  obtain ⟨patternSpan, patternSplit, patternDerivation⟩ := parsed.anywhere
  obtain ⟨span, split, derivation⟩ := (sound readArrow.terminated atBody).anywhere
  refine ⟨⟨keyword, isCase, patternSpan, pattern, arrow, isArrow, span, body⟩, patternDerivation,
    derivation, rfl, ?_⟩
  simp [Arm.span, readKeyword.remaining, patternSplit, readArrow.remaining, split]

/-- The arms between two places of a stream, with a comma after the last one or not. -/
def ArmsParsed (stream : Stream) (found : List Arm) (after : Stream) : Prop :=
  (∀ arm ∈ found, Derives .expression false arm.pattern arm.patternNode) ∧
  (∀ arm ∈ found, Derives .expression false arm.body arm.bodyNode) ∧
  ∃ inner extra, stream.remaining = inner ++ extra ++ after.remaining ∧
    Separated .comma (found.map Arm.span) inner ∧
    (extra = [] ∨ found ≠ [] ∧ ∃ comma : Token, comma.kind = .comma ∧ extra = [comma])

theorem ArmsParsed.none : ArmsParsed stream [] stream :=
  ⟨by simp, by simp, [], [], by simp, .none, .inl rfl⟩

theorem ArmsParsed.one {found : Arm}
    (pattern : Derives .expression false found.pattern found.patternNode)
    (body : Derives .expression false found.body found.bodyNode)
    (split : stream.remaining = found.span ++ after.remaining) : ArmsParsed stream [found] after :=
  ⟨by simpa using pattern, by simpa using body, found.span ++ [], [], by simpa using split,
    .some .none, .inl rfl⟩

theorem ArmsParsed.more {found : Arm} {middle next : Stream} {comma : Token}
    (pattern : Derives .expression false found.pattern found.patternNode)
    (body : Derives .expression false found.body found.bodyNode)
    (split : stream.remaining = found.span ++ middle.remaining) (isComma : comma.kind = .comma)
    (readComma : middle.Consumes comma next) (rest : ArmsParsed next others after) :
    ArmsParsed stream (found :: others) after := by
  obtain ⟨patterns, bodies, inner, extra, restSplit, joined, trailing⟩ := rest
  refine ⟨by simpa [pattern] using patterns, by simpa [body] using bodies, ?_⟩
  cases others with
  | nil =>
    have noExtra : extra = [] := by simpa using trailing
    subst noExtra
    cases joined
    refine ⟨found.span ++ [], [comma], ?_, .some .none, .inr ⟨by simp, comma, isComma, rfl⟩⟩
    simpa [split, readComma.remaining] using restSplit
  | cons other others =>
    cases joined with
    | @some _ tail _ rest =>
      refine ⟨found.span ++ (comma :: other.span ++ tail), extra, ?_, .some (.more isComma rest),
        by simpa using trailing⟩
      simp [split, readComma.remaining, restSplit]

theorem arms_sound {found nodes : Array Node} (sound : Sound parse) (terminated : stream.Terminated)
    (success : arms parse found turns stream = .ok nodes after) :
    ∃ read : List Arm, nodes.toList = found.toList ++ read.map Arm.node ∧
      ArmsParsed stream read after := by
  induction turns generalizing stream found with
  | zero =>
    obtain ⟨rfl, rfl⟩ := pure_eq_ok.mp success
    exact ⟨[], by simp, .none⟩
  | succ turns ih =>
    rw [arms, bind_of_ok _ (check_run _ _)] at success
    split at success
    · obtain ⟨rfl, rfl⟩ := pure_eq_ok.mp success
      exact ⟨[], by simp, .none⟩
    · simp only [bind_eq_ok] at success
      obtain ⟨_, _, atArm, comma?, _, atComma, success⟩ := success
      obtain ⟨next, pattern, body, rfl, split⟩ := arm_sound sound terminated atArm
      have ended := terminated.of_suffix split
      cases comma? with
      | none =>
        obtain ⟨-, rfl⟩ := accept_none atComma
        obtain ⟨rfl, rfl⟩ := pure_eq_ok.mp success
        exact ⟨[next], by simp, .one pattern body split⟩
      | some comma =>
        obtain ⟨isComma, readComma⟩ := accept_some_consumes ended atComma (by decide)
        obtain ⟨read, listed, rest⟩ := ih readComma.terminated success
        exact ⟨next :: read, by simp [listed],
          .more pattern body split (by simpa using isComma) readComma rest⟩

theorem matchingBody_sound (sound : Sound parse) (terminated : stream.Terminated)
    (success : matchingBody parse turns stream = .ok node after) :
    Parsed .matching stream node after := by
  simp only [matchingBody, expectKind, bind_eq_ok, pure_eq_ok] at success
  obtain ⟨keyword, _, atKeyword, subject, _, atSubject, opener, _, atOpener, nodes, _, atNodes, closer,
    _, atCloser, rfl, rfl⟩ := success
  obtain ⟨isMatch, readKeyword⟩ := expect_consumes terminated atKeyword (by decide)
  have parsed := sound readKeyword.terminated atSubject
  obtain ⟨opens, readOpener⟩ :=
    expect_consumes (parsed.terminated readKeyword.terminated) atOpener (by decide)
  obtain ⟨read, listed, patterns, bodies, inner, extra, split, joined, trailing⟩ :=
    arms_sound sound readOpener.terminated atNodes
  obtain ⟨closes, readCloser⟩ :=
    expect_consumes (readOpener.terminated.of_suffix split) atCloser (by decide)
  obtain ⟨subjectSpan, subjectSplit, derivation⟩ := parsed.anywhere
  refine ⟨keyword :: subjectSpan ++ opener :: inner ++ extra ++ [closer], ?_, ?_⟩
  · simp [readKeyword.remaining, subjectSplit, readOpener.remaining, split, readCloser.remaining]
  · simpa [listed] using
      Derives.matching isMatch derivation opens read patterns bodies joined trailing closes

theorem body_sound (sound : Sound parse) : Sound (body parse turns) := by
  intro phrase stream node after terminated success
  cases phrase with
  | declaration => exact declarationBody_sound sound terminated success
  | variableDeclaration => exact variableDeclarationBody_sound sound terminated success
  | functionDeclaration => exact functionDeclarationBody_sound sound terminated success
  | statement => exact statementBody_sound sound terminated success
  | printStatement => exact printStatementBody_sound sound terminated success
  | ifStatement => exact ifStatementBody_sound sound terminated success
  | whileStatement => exact whileStatementBody_sound sound terminated success
  | forStatement => exact forStatementBody_sound sound terminated success
  | returnStatement => exact returnStatementBody_sound sound terminated success
  | block => exact blockBody_sound sound terminated success
  | expressionStatement => exact expressionStatementBody_sound sound terminated success
  | expression => exact (sound terminated success).alternative (by simp [alternatives])
  | assignment => exact assignmentBody_sound sound terminated success
  | equality => exact chain_sound sound (by simp [alternatives]) terminated success
  | comparison => exact chain_sound sound (by simp [alternatives]) terminated success
  | term => exact chain_sound sound (by simp [alternatives]) terminated success
  | factor => exact chain_sound sound (by simp [alternatives]) terminated success
  | unary => exact unaryBody_sound sound terminated success
  | call => exact callBody_sound sound terminated success
  | primary => exact primaryBody_sound sound terminated success
  | matching => exact matchingBody_sound sound terminated success

end

/-- At every depth limit, a phrase that is read is one of the grammar. -/
theorem parseWithin_sound (turns depth : Nat) :
    Sound (fun phrase => phrase.parseWithin turns depth) := by
  induction depth with
  | zero => intro phrase stream node after _ success; cases success
  | succ depth ih => exact body_sound ih

end Scriptlet.Grammar
