import Scriptlet.Proofs.Grammar.Rules
import Scriptlet.Proofs.Parsing.Stream

/-! Whatever statement the parser reads is derived by the grammar. Each phrase is treated on its own,
on the assumption that the phrases inside it are parsed soundly; loops carry the derivation of what
they have read so far. -/
namespace Scriptlet.Grammar

open Scriptlet.Action Parse Phrase

variable {phrase inner : Phrase} {stream after : Stream} {node : Node}

/-- The tokens between two places of a stream form a phrase. -/
def Parsed (phrase : Phrase) (stream : Stream) (node : Node) (after : Stream) : Prop :=
  ∃ span, stream.remaining = span ++ after.remaining ∧
    Derives phrase (decide (after.current.kind = .elseWord)) span node

def Sound (parse : Phrase → Parse Node) : Prop :=
  ∀ ⦃phrase stream node after⦄, stream.Terminated → parse phrase stream = .ok node after →
    Parsed phrase stream node after

theorem Parsed.terminated (parsed : Parsed phrase stream node after)
    (terminated : stream.Terminated) : after.Terminated := by
  obtain ⟨span, split, _⟩ := parsed
  exact terminated.of_suffix split

theorem Parsed.anywhere (parsed : Parsed phrase stream node after) :
    ∃ span, stream.remaining = span ++ after.remaining ∧ Derives phrase false span node := by
  obtain ⟨span, split, derivation⟩ := parsed
  exact ⟨span, split, derivation.anywhere⟩

theorem Parsed.alternative (parsed : Parsed inner stream node after)
    (listed : inner ∈ Phrase.alternatives phrase) : Parsed phrase stream node after := by
  obtain ⟨span, split, derivation⟩ := parsed
  exact ⟨span, split, .alternative listed derivation⟩

/-- Items with a comma before each of them, between two places of a stream. -/
def Tail (span : α → List Token) (stream : Stream) (items : List α) (after : Stream) : Prop :=
  ∃ inner, stream.remaining = inner ++ after.remaining ∧ Following .comma (items.map span) inner

theorem Tail.none {span : α → List Token} : Tail span stream [] stream :=
  ⟨[], rfl, .none⟩

theorem Tail.more {span : α → List Token} {start : Stream} {comma : Token}
    (rest : Tail span stream items after) (isComma : comma.kind = .comma)
    (readComma : start.Consumes comma middle)
    (split : middle.remaining = span item ++ stream.remaining) :
    Tail span start (item :: items) after := by
  obtain ⟨inner, restSplit, joined⟩ := rest
  refine ⟨comma :: span item ++ inner, ?_, .more isComma joined⟩
  simp [readComma.remaining, split, restSplit]

section

variable {parse : Phrase → Parse Node} {turns : Nat}

theorem declarationBody_sound (sound : Sound parse) (terminated : stream.Terminated)
    (success : declarationBody parse stream = .ok node after) :
    Parsed .declaration stream node after := by
  rw [declarationBody, bind_of_ok _ (current_run stream)] at success
  generalize stream.current.kind = kind at success
  split at success <;> exact (sound terminated success).alternative (by simp [alternatives])

theorem statementBody_sound (sound : Sound parse) (terminated : stream.Terminated)
    (success : statementBody parse stream = .ok node after) :
    Parsed .statement stream node after := by
  rw [statementBody, bind_of_ok _ (current_run stream)] at success
  generalize stream.current.kind = kind at success
  split at success <;> exact (sound terminated success).alternative (by simp [alternatives])

theorem variableDeclarationBody_sound (sound : Sound parse) (terminated : stream.Terminated)
    (success : variableDeclarationBody parse stream = .ok node after) :
    Parsed .variableDeclaration stream node after := by
  simp only [variableDeclarationBody, expectKind, bind_eq_ok] at success
  obtain ⟨keyword, _, atKeyword, name, _, atName, equals?, _, atEquals, success⟩ := success
  obtain ⟨isVar, readKeyword⟩ := expect_consumes terminated atKeyword (by decide)
  obtain ⟨isName, readName⟩ := expect_consumes readKeyword.terminated atName (by decide)
  cases equals? with
  | none =>
    obtain ⟨-, rfl⟩ := accept_none atEquals
    simp only [bind_eq_ok, pure_eq_ok] at success
    obtain ⟨_, _, ⟨rfl, rfl⟩, semicolon, _, atSemicolon, rfl, rfl⟩ := success
    obtain ⟨ends, readEnd⟩ := expect_consumes readName.terminated atSemicolon (by decide)
    refine ⟨[keyword, name, semicolon], ?_, .uninitialized isVar isName ends⟩
    simp [readKeyword.remaining, readName.remaining, readEnd.remaining]
  | some equals =>
    obtain ⟨isAssign, readEquals⟩ := accept_some_consumes readName.terminated atEquals (by decide)
    simp only [bind_eq_ok, pure_eq_ok] at success
    obtain ⟨initializer, _, atInitializer, semicolon, _, atSemicolon, rfl, rfl⟩ := success
    have parsed := sound readEquals.terminated atInitializer
    obtain ⟨ends, readEnd⟩ :=
      expect_consumes (parsed.terminated readEquals.terminated) atSemicolon (by decide)
    obtain ⟨span, split, derivation⟩ := parsed.anywhere
    refine ⟨keyword :: name :: equals :: span ++ [semicolon], ?_,
      .initialized isVar isName (by simpa using isAssign) derivation ends⟩
    simp [readKeyword.remaining, readName.remaining, readEquals.remaining, split, readEnd.remaining]

theorem moreParams_sound {found names : Array String} (terminated : stream.Terminated)
    (success : moreParams found turns stream = .ok names after) :
    ∃ params : List Token, (∀ param ∈ params, param.kind = .identifier) ∧
      names.toList = found.toList ++ params.map Token.lexeme ∧
      Tail (fun param => [param]) stream params after := by
  induction turns generalizing stream found with
  | zero =>
    obtain ⟨rfl, rfl⟩ := pure_eq_ok.mp success
    exact ⟨[], by simp, by simp, .none⟩
  | succ turns ih =>
    simp only [moreParams, bind_eq_ok] at success
    obtain ⟨comma?, _, atComma, success⟩ := success
    cases comma? with
    | none =>
      obtain ⟨-, rfl⟩ := accept_none atComma
      obtain ⟨rfl, rfl⟩ := pure_eq_ok.mp success
      exact ⟨[], by simp, by simp, .none⟩
    | some comma =>
      simp only [bind_eq_ok] at success
      obtain ⟨name, _, atName, success⟩ := success
      obtain ⟨isComma, readComma⟩ := accept_some_consumes terminated atComma (by decide)
      obtain ⟨isName, readName⟩ := expect_consumes readComma.terminated atName (by decide)
      obtain ⟨params, isParam, listed, tail⟩ := ih readName.terminated success
      refine ⟨name :: params, by simpa [isName] using isParam, by simp [listed], ?_⟩
      exact tail.more (by simpa using isComma) readComma (by simp [readName.remaining])

theorem params_sound {names : Array String} (terminated : stream.Terminated)
    (success : params turns stream = .ok names after) :
    ∃ (found : List Token) (inner : List Token), stream.remaining = inner ++ after.remaining ∧
      (∀ param ∈ found, param.kind = .identifier) ∧ names.toList = found.map Token.lexeme ∧
      Separated .comma (found.map fun param => [param]) inner := by
  rw [params, bind_of_ok _ (check_run _ _)] at success
  split at success
  · obtain ⟨rfl, rfl⟩ := pure_eq_ok.mp success
    exact ⟨[], [], by simp, by simp, by simp, .none⟩
  · obtain ⟨first, _, atFirst, success⟩ := bind_eq_ok.mp success
    obtain ⟨isName, readFirst⟩ := expect_consumes terminated atFirst (by decide)
    obtain ⟨params, isParam, listed, inner, split, joined⟩ :=
      moreParams_sound readFirst.terminated success
    refine ⟨first :: params, [first] ++ inner, ?_, by simpa [isName] using isParam,
      by simp [listed], .some joined⟩
    simp [readFirst.remaining, split]

theorem functionDeclarationBody_sound (sound : Sound parse) (terminated : stream.Terminated)
    (success : functionDeclarationBody parse turns stream = .ok node after) :
    Parsed .functionDeclaration stream node after := by
  simp only [functionDeclarationBody, expectKind, bind_eq_ok, pure_eq_ok] at success
  obtain ⟨keyword, _, atKeyword, name, _, atName, opener, _, atOpener, names, _, atNames, closer, _,
    atCloser, body, final, atBody, _, _, noted, rfl, rfl⟩ := success
  obtain ⟨isFn, readKeyword⟩ := expect_consumes terminated atKeyword (by decide)
  obtain ⟨isName, readName⟩ := expect_consumes readKeyword.terminated atName (by decide)
  obtain ⟨opens, readOpener⟩ := expect_consumes readName.terminated atOpener (by decide)
  obtain ⟨params, inner, split, isParam, listed, joined⟩ :=
    params_sound readOpener.terminated atNames
  obtain ⟨closes, readCloser⟩ :=
    expect_consumes (readOpener.terminated.of_suffix split) atCloser (by decide)
  obtain ⟨span, bodySplit, derivation⟩ := sound readCloser.terminated atBody
  cases noted
  refine ⟨keyword :: name :: opener :: inner ++ closer :: span, ?_, ?_⟩
  · simp [readKeyword.remaining, readName.remaining, readOpener.remaining, split,
      readCloser.remaining, bodySplit]
    rfl
  · rw [listed]
    exact .function isFn isName opens params isParam joined closes derivation

theorem printStatementBody_sound (sound : Sound parse) (terminated : stream.Terminated)
    (success : printStatementBody parse stream = .ok node after) :
    Parsed .printStatement stream node after := by
  simp only [printStatementBody, expectKind, bind_eq_ok, pure_eq_ok] at success
  obtain ⟨keyword, _, atKeyword, value, _, atValue, semicolon, _, atSemicolon, rfl, rfl⟩ := success
  obtain ⟨isPrint, readKeyword⟩ := expect_consumes terminated atKeyword (by decide)
  have parsed := sound readKeyword.terminated atValue
  obtain ⟨ends, readEnd⟩ :=
    expect_consumes (parsed.terminated readKeyword.terminated) atSemicolon (by decide)
  obtain ⟨span, split, derivation⟩ := parsed.anywhere
  refine ⟨keyword :: span ++ [semicolon], ?_, .print isPrint derivation ends⟩
  simp [readKeyword.remaining, split, readEnd.remaining]

theorem ifStatementBody_sound (sound : Sound parse) (terminated : stream.Terminated)
    (success : ifStatementBody parse stream = .ok node after) :
    Parsed .ifStatement stream node after := by
  simp only [ifStatementBody, expectKind, bind_eq_ok] at success
  obtain ⟨keyword, _, atKeyword, opener, _, atOpener, condition, _, atCondition, closer, _, atCloser,
    branch, _, atBranch, else?, _, atElse, success⟩ := success
  obtain ⟨isIf, readKeyword⟩ := expect_consumes terminated atKeyword (by decide)
  obtain ⟨opens, readOpener⟩ := expect_consumes readKeyword.terminated atOpener (by decide)
  have parsedTest := sound readOpener.terminated atCondition
  obtain ⟨closes, readCloser⟩ :=
    expect_consumes (parsedTest.terminated readOpener.terminated) atCloser (by decide)
  have parsedBranch := sound readCloser.terminated atBranch
  have endBranch := parsedBranch.terminated readCloser.terminated
  obtain ⟨test, testSplit, testDerivation⟩ := parsedTest.anywhere
  obtain ⟨span, split, derivation⟩ := parsedBranch
  cases else? with
  | none =>
    obtain ⟨noElse, rfl⟩ := accept_none atElse
    simp only [bind_eq_ok, pure_eq_ok] at success
    obtain ⟨_, _, ⟨rfl, rfl⟩, rfl, rfl⟩ := success
    simp only [List.mem_singleton] at noElse
    refine ⟨keyword :: opener :: test ++ closer :: span, ?_, ?_⟩
    · simp [readKeyword.remaining, readOpener.remaining, testSplit, readCloser.remaining, split]
    · simpa [noElse] using .ifOnly isIf opens testDerivation closes derivation.anywhere
  | some divider =>
    obtain ⟨isElse, readElse⟩ := accept_some_consumes endBranch atElse (by decide)
    simp only [bind_eq_ok, pure_eq_ok] at success
    obtain ⟨otherwise, _, atOtherwise, rfl, rfl⟩ := success
    obtain ⟨otherSpan, otherSplit, otherDerivation⟩ := sound readElse.terminated atOtherwise
    simp only [List.mem_singleton] at isElse
    simp only [readElse.current, isElse, decide_true] at derivation
    refine ⟨keyword :: opener :: test ++ closer :: span ++ divider :: otherSpan, ?_,
      .ifElse isIf opens testDerivation closes derivation isElse otherDerivation⟩
    simp [readKeyword.remaining, readOpener.remaining, testSplit, readCloser.remaining, split,
      readElse.remaining, otherSplit]

theorem whileStatementBody_sound (sound : Sound parse) (terminated : stream.Terminated)
    (success : whileStatementBody parse stream = .ok node after) :
    Parsed .whileStatement stream node after := by
  simp only [whileStatementBody, expectKind, bind_eq_ok, pure_eq_ok] at success
  obtain ⟨keyword, _, atKeyword, opener, _, atOpener, condition, _, atCondition, closer, _, atCloser,
    body, _, atBody, rfl, rfl⟩ := success
  obtain ⟨isWhile, readKeyword⟩ := expect_consumes terminated atKeyword (by decide)
  obtain ⟨opens, readOpener⟩ := expect_consumes readKeyword.terminated atOpener (by decide)
  have parsedTest := sound readOpener.terminated atCondition
  obtain ⟨closes, readCloser⟩ :=
    expect_consumes (parsedTest.terminated readOpener.terminated) atCloser (by decide)
  obtain ⟨test, testSplit, testDerivation⟩ := parsedTest.anywhere
  obtain ⟨span, split, derivation⟩ := sound readCloser.terminated atBody
  refine ⟨keyword :: opener :: test ++ closer :: span, ?_,
    .whileLoop isWhile opens testDerivation closes derivation⟩
  simp [readKeyword.remaining, readOpener.remaining, testSplit, readCloser.remaining, split]

/-- A clause that is absent exactly where its span is empty; `whole` may go on after that span. -/
def Clause (phrase : Phrase) (span whole : List Token) (node : Node) : Prop :=
  (span = [] → node = .absent) ∧ (span ≠ [] → Derives phrase false whole node)

theorem Clause.isAbsent (clause : Clause phrase span whole node) :
    node.isAbsent = decide (span = []) := by
  by_cases empty : span = []
  · rw [clause.1 empty, decide_eq_true empty]
    rfl
  · simpa [empty] using (clause.2 empty).present

/-- The first clause of a `for` loop and the semicolon that ends it. -/
def InitializerParsed (stream : Stream) (node : Node) (after : Stream) : Prop :=
  ∃ phrase span semicolon, phrase ∈ [Phrase.variableDeclaration, .expressionStatement] ∧
    semicolon.kind = .semicolon ∧ stream.remaining = span ++ semicolon :: after.remaining ∧
    Clause phrase span (span ++ [semicolon]) node

theorem Parsed.initializer (parsed : Parsed phrase stream node after)
    (starts : phrase ∈ [Phrase.variableDeclaration, .expressionStatement]) :
    InitializerParsed stream node after := by
  obtain ⟨_, split, derivation⟩ := parsed.anywhere
  obtain ⟨span, semicolon, nonempty, ends, rfl⟩ := derivation.semicolon_last starts
  exact ⟨phrase, span, semicolon, starts, ends, by simpa using split,
    fun empty => absurd empty nonempty, fun _ => derivation⟩

theorem forInitializer_sound (sound : Sound parse) (terminated : stream.Terminated)
    (success : forInitializer parse stream = .ok node after) :
    InitializerParsed stream node after := by
  simp only [forInitializer, bind_eq_ok] at success
  obtain ⟨semicolon?, _, atSemicolon, success⟩ := success
  cases semicolon? with
  | some semicolon =>
    obtain ⟨ends, readEnd⟩ := accept_some_consumes terminated atSemicolon (by decide)
    obtain ⟨rfl, rfl⟩ := pure_eq_ok.mp success
    exact ⟨.variableDeclaration, [], semicolon, by simp, by simpa using ends, readEnd.remaining,
      fun _ => rfl, by simp⟩
  | none =>
    obtain ⟨-, rfl⟩ := accept_none atSemicolon
    simp only [bind_eq_ok, check_run] at success
    obtain ⟨_, _, ⟨⟩, success⟩ := success
    split at success
    · exact (sound terminated success).initializer (by simp)
    · exact (sound terminated success).initializer (by simp)

theorem expressionUnless_sound (sound : Sound parse) (terminated : stream.Terminated)
    (success : expressionUnless parse stop stream = .ok node after) :
    ∃ span, stream.remaining = span ++ after.remaining ∧ Clause .expression span span node := by
  rw [expressionUnless, bind_of_ok _ (check_run _ _)] at success
  split at success
  · obtain ⟨rfl, rfl⟩ := pure_eq_ok.mp success
    exact ⟨[], rfl, fun _ => rfl, by simp⟩
  · obtain ⟨span, split, derivation⟩ := (sound terminated success).anywhere
    exact ⟨span, split, fun empty => absurd empty derivation.span_ne_nil, fun _ => derivation⟩

theorem forStatementBody_sound (sound : Sound parse) (terminated : stream.Terminated)
    (success : forStatementBody parse stream = .ok node after) :
    Parsed .forStatement stream node after := by
  simp only [forStatementBody, expectKind, bind_eq_ok, pure_eq_ok] at success
  obtain ⟨keyword, _, atKeyword, opener, _, atOpener, initializer, _, atInitializer, condition, _,
    atCondition, secondEnd, _, atSecond, increment, _, atIncrement, closer, _, atCloser, body, _,
    atBody, rfl, rfl⟩ := success
  obtain ⟨isFor, readKeyword⟩ := expect_consumes terminated atKeyword (by decide)
  obtain ⟨opens, readOpener⟩ := expect_consumes readKeyword.terminated atOpener (by decide)
  obtain ⟨phrase, first, firstEnd, starts, endsFirst, firstSplit, firstClause⟩ :=
    forInitializer_sound sound readOpener.terminated atInitializer
  have terminatedFirst := readOpener.terminated.of_suffix
    (show _ = (first ++ [firstEnd]) ++ _ by simpa using firstSplit)
  obtain ⟨second, secondSplit, secondClause⟩ :=
    expressionUnless_sound sound terminatedFirst atCondition
  obtain ⟨endsSecond, readSecond⟩ :=
    expect_consumes (terminatedFirst.of_suffix secondSplit) atSecond (by decide)
  obtain ⟨third, thirdSplit, thirdClause⟩ :=
    expressionUnless_sound sound readSecond.terminated atIncrement
  obtain ⟨closes, readCloser⟩ :=
    expect_consumes (readSecond.terminated.of_suffix thirdSplit) atCloser (by decide)
  obtain ⟨span, split, derivation⟩ := sound readCloser.terminated atBody
  refine ⟨keyword :: opener :: first ++ firstEnd :: second ++ secondEnd :: third ++ closer :: span,
    ?_, ?_⟩
  · simp [readKeyword.remaining, readOpener.remaining, firstSplit, secondSplit,
      readSecond.remaining, thirdSplit, readCloser.remaining, split]
  · have rule := Derives.forLoop isFor opens starts firstClause.2 endsFirst secondClause.2 endsSecond
      thirdClause.2 closes derivation
    simp only [Node.expandFor, firstClause.isAbsent, secondClause.isAbsent, thirdClause.isAbsent,
      decide_eq_true_eq]
    split <;> simpa [*] using rule

theorem returnStatementBody_sound (sound : Sound parse) (terminated : stream.Terminated)
    (success : returnStatementBody parse stream = .ok node after) :
    Parsed .returnStatement stream node after := by
  simp only [returnStatementBody, expectKind, bind_eq_ok, pure_eq_ok] at success
  obtain ⟨keyword, _, atKeyword, value, _, atValue, semicolon, _, atSemicolon, rfl, rfl⟩ := success
  obtain ⟨isReturn, readKeyword⟩ := expect_consumes terminated atKeyword (by decide)
  obtain ⟨span, split, clause⟩ := expressionUnless_sound sound readKeyword.terminated atValue
  obtain ⟨ends, readEnd⟩ :=
    expect_consumes (readKeyword.terminated.of_suffix split) atSemicolon (by decide)
  refine ⟨keyword :: span ++ [semicolon], by simp [readKeyword.remaining, split, readEnd.remaining],
    ?_⟩
  by_cases empty : span = []
  · rw [clause.1 empty, empty]
    exact .bareReturn isReturn ends
  · exact .returnValue isReturn (clause.2 empty) ends

theorem declarations_sound {found nodes : Array Node} (sound : Sound parse)
    (terminated : stream.Terminated)
    (success : declarations parse found turns stream = .ok nodes after) :
    ∃ parts : List (List Token × Node),
      stream.remaining = (parts.map Prod.fst).flatten ++ after.remaining ∧
      (∀ part ∈ parts, Derives .declaration false part.1 part.2) ∧
      nodes.toList = found.toList ++ parts.map Prod.snd := by
  induction turns generalizing stream found with
  | zero =>
    obtain ⟨rfl, rfl⟩ := pure_eq_ok.mp success
    exact ⟨[], by simp, by simp, by simp⟩
  | succ turns ih =>
    simp only [declarations, bind_eq_ok, check_run] at success
    obtain ⟨_, _, ⟨⟩, _, _, ⟨⟩, success⟩ := success
    split at success
    · obtain ⟨rfl, rfl⟩ := pure_eq_ok.mp success
      exact ⟨[], by simp, by simp, by simp⟩
    · obtain ⟨next, _, atNext, success⟩ := bind_eq_ok.mp success
      have parsed := sound terminated atNext
      obtain ⟨span, split, derivation⟩ := parsed.anywhere
      obtain ⟨parts, restSplit, each, listed⟩ := ih (parsed.terminated terminated) success
      refine ⟨(span, next) :: parts, by simp [split, restSplit], ?_, by simp [listed]⟩
      simpa [derivation] using each

theorem blockBody_sound (sound : Sound parse) (terminated : stream.Terminated)
    (success : blockBody parse turns stream = .ok node after) : Parsed .block stream node after := by
  simp only [blockBody, bind_eq_ok, pure_eq_ok] at success
  obtain ⟨opener, _, atOpener, nodes, _, atNodes, closer, _, atCloser, rfl, rfl⟩ := success
  obtain ⟨opens, readOpener⟩ := expect_consumes terminated atOpener (by decide)
  obtain ⟨parts, split, each, listed⟩ := declarations_sound sound readOpener.terminated atNodes
  obtain ⟨closes, readCloser⟩ :=
    expect_consumes (readOpener.terminated.of_suffix split) atCloser (by decide)
  refine ⟨opener :: (parts.map Prod.fst).flatten ++ [closer], ?_, ?_⟩
  · simp [readOpener.remaining, split, readCloser.remaining]
  · simpa [listed] using .block opens parts each closes

theorem expressionStatementBody_sound (sound : Sound parse) (terminated : stream.Terminated)
    (success : expressionStatementBody parse stream = .ok node after) :
    Parsed .expressionStatement stream node after := by
  simp only [expressionStatementBody, bind_eq_ok, pure_eq_ok, current_run] at success
  obtain ⟨_, _, ⟨⟩, expression, _, atExpression, semicolon, _, atSemicolon, rfl, rfl⟩ := success
  have parsed := sound terminated atExpression
  obtain ⟨ends, readEnd⟩ := expect_consumes (parsed.terminated terminated) atSemicolon (by decide)
  obtain ⟨span, split, derivation⟩ := parsed.anywhere
  cases span with
  | nil => exact absurd rfl derivation.span_ne_nil
  | cons first span =>
    rw [Stream.current_of_remaining split]
    refine ⟨first :: span ++ [semicolon], ?_, .expressionStatement derivation ends⟩
    simp [split, readEnd.remaining]

end

end Scriptlet.Grammar
