import Scriptlet.Proofs.Grammar.Lookahead
import Scriptlet.Proofs.Parsing.Stream

/-! Whatever the grammar derives is read by the parser, provided that the token after it does not
carry it on. Each phrase is treated on its own, on the assumption that its parts are read. -/
namespace Scriptlet.Grammar

open Scriptlet.Action Parse Phrase

theorem Following.length_le (joined : Following separator spans tail) :
    spans.length ≤ tail.length := by
  induction joined with
  | none => simp
  | more _ _ ih =>
    simp only [List.length_cons, List.length_append, List.cons_append]
    omega

/-- No more parts than tokens. -/
theorem length_le_flatten {parts : List (List Token × Node)}
    (nonempty : ∀ part ∈ parts, part.1 ≠ []) :
    parts.length ≤ (parts.map Prod.fst).flatten.length := by
  induction parts with
  | nil => simp
  | cons part parts ih =>
    have some := List.length_pos_iff.mpr (nonempty part (by simp))
    have rest := ih fun part member => nonempty part (by simp [member])
    simp only [List.map_cons, List.flatten_cons, List.length_cons, List.length_append]
    omega

/-- The parser reads `span` as `value` and stops before any token that `stops` allows. -/
def Reads (turns : Nat) (parse : Parse α) (stops : Token → Prop) (span : List Token)
    (value : α) : Prop :=
  ∀ ⦃stream next rest⦄, stream.At turns (span ++ next :: rest) → stops next →
    ∃ after, parse stream = .ok value after ∧ after.At turns (next :: rest)

section

variable {parse : Phrase → Parse Node} {turns : Nat} {stops : Token → Prop}
variable {keyword name equals opener closer divider semicolon : Token} {span test : List Token}
variable {node testNode : Node}

theorem uninitialized_reads (isVar : keyword.kind = .varWord) (isName : name.kind = .identifier)
    (ends : semicolon.kind = .semicolon) :
    Reads turns (variableDeclarationBody parse) stops [keyword, name, semicolon]
      (.varDecl keyword.line name.lexeme .absent) := by
  intro stream next rest place _
  obtain ⟨_, atKeyword, place⟩ := expect_at place (by simp) isVar (by decide)
  obtain ⟨_, atName, place⟩ := expect_at place (by simp) isName (by decide)
  have noEquals := accept_at_none [.assign] place (by simp [ends])
  obtain ⟨after, atEnd, place⟩ := expect_at place (by simp) ends (by decide)
  refine ⟨after, ?_, place⟩
  simp only [variableDeclarationBody, expectKind, bind_run, pure_run, atKeyword, atName, noEquals,
    atEnd]

theorem initialized_reads (isVar : keyword.kind = .varWord) (isName : name.kind = .identifier)
    (isAssign : equals.kind = .assign)
    (initializer : Reads turns (parse .expression) (Stops .expression false) span node)
    (ends : semicolon.kind = .semicolon) :
    Reads turns (variableDeclarationBody parse) stops
      (keyword :: name :: equals :: span ++ [semicolon])
      (.varDecl keyword.line name.lexeme node) := by
  intro stream next rest place _
  simp only [List.append_assoc, List.cons_append, List.nil_append] at place
  obtain ⟨_, atKeyword, place⟩ := expect_at place (by simp) isVar (by decide)
  obtain ⟨_, atName, place⟩ := expect_at place (by simp) isName (by decide)
  obtain ⟨_, atEquals, place⟩ :=
    accept_at place (by simp) (List.mem_singleton.mpr isAssign) (by decide)
  obtain ⟨_, atInitializer, place⟩ := initializer place (.of_kind ends (by decide))
  obtain ⟨after, atEnd, place⟩ := expect_at place (by simp) ends (by decide)
  refine ⟨after, ?_, place⟩
  simp only [variableDeclarationBody, expectKind, bind_run, pure_run, atKeyword, atName, atEquals,
    atInitializer, atEnd]

theorem print_reads (isPrint : keyword.kind = .printWord)
    (expression : Reads turns (parse .expression) (Stops .expression false) span node)
    (ends : semicolon.kind = .semicolon) :
    Reads turns (printStatementBody parse) stops (keyword :: span ++ [semicolon])
      (.printStmt keyword.line node) := by
  intro stream next rest place _
  simp only [List.append_assoc, List.cons_append, List.nil_append] at place
  obtain ⟨_, atKeyword, place⟩ := expect_at place (by simp) isPrint (by decide)
  obtain ⟨_, atExpression, place⟩ := expression place (.of_kind ends (by decide))
  obtain ⟨after, atEnd, place⟩ := expect_at place (by simp) ends (by decide)
  refine ⟨after, ?_, place⟩
  simp only [printStatementBody, expectKind, bind_run, pure_run, atKeyword, atExpression, atEnd]

theorem ifOnly_reads (isIf : keyword.kind = .ifWord) (opens : opener.kind = .leftParen)
    (condition : Reads turns (parse .expression) (Stops .expression false) test testNode)
    (closes : closer.kind = .rightParen)
    (branch : Reads turns (parse .statement) (Stops .statement false) span node) :
    Reads turns (ifStatementBody parse) (Stops .ifStatement false)
      (keyword :: opener :: test ++ closer :: span) (.ifStmt keyword.line testNode node .absent) := by
  intro stream next rest place next_stops
  simp only [List.append_assoc, List.cons_append] at place
  obtain ⟨_, atKeyword, place⟩ := expect_at place (by simp) isIf (by decide)
  obtain ⟨_, atOpener, place⟩ := expect_at place (by simp) opens (by decide)
  obtain ⟨_, atCondition, place⟩ := condition place (.of_kind closes (by decide))
  obtain ⟨_, atCloser, place⟩ := expect_at place (by simp) closes (by decide)
  obtain ⟨after, atBranch, place⟩ := branch place next_stops
  have noElse := accept_at_none [.elseWord] place (by simpa using next_stops.2 rfl)
  refine ⟨after, ?_, place⟩
  simp only [ifStatementBody, expectKind, bind_run, pure_run, atKeyword, atOpener, atCondition,
    atCloser, atBranch, noElse]

theorem ifElse_reads {otherSpan : List Token} {otherNode : Node} (isIf : keyword.kind = .ifWord)
    (opens : opener.kind = .leftParen)
    (condition : Reads turns (parse .expression) (Stops .expression false) test testNode)
    (closes : closer.kind = .rightParen)
    (branch : Reads turns (parse .statement) (Stops .statement true) span node)
    (isElse : divider.kind = .elseWord)
    (otherwise : Reads turns (parse .statement) stops otherSpan otherNode) :
    Reads turns (ifStatementBody parse) stops
      (keyword :: opener :: test ++ closer :: span ++ divider :: otherSpan)
      (.ifStmt keyword.line testNode node otherNode) := by
  intro stream next rest place next_stops
  simp only [List.append_assoc, List.cons_append] at place
  obtain ⟨_, atKeyword, place⟩ := expect_at place (by simp) isIf (by decide)
  obtain ⟨_, atOpener, place⟩ := expect_at place (by simp) opens (by decide)
  obtain ⟨_, atCondition, place⟩ := condition place (.of_kind closes (by decide))
  obtain ⟨_, atCloser, place⟩ := expect_at place (by simp) closes (by decide)
  obtain ⟨_, atBranch, place⟩ := branch place ⟨by simp [continuations], by simp⟩
  obtain ⟨_, atElse, place⟩ :=
    accept_at place (by simp) (List.mem_singleton.mpr isElse) (by decide)
  obtain ⟨after, atOtherwise, place⟩ := otherwise place next_stops
  refine ⟨after, ?_, place⟩
  simp only [ifStatementBody, expectKind, bind_run, pure_run, atKeyword, atOpener, atCondition,
    atCloser, atBranch, atElse, atOtherwise]

theorem whileLoop_reads (isWhile : keyword.kind = .whileWord) (opens : opener.kind = .leftParen)
    (condition : Reads turns (parse .expression) (Stops .expression false) test testNode)
    (closes : closer.kind = .rightParen)
    (body : Reads turns (parse .statement) stops span node) :
    Reads turns (whileStatementBody parse) stops (keyword :: opener :: test ++ closer :: span)
      (.whileStmt keyword.line testNode node) := by
  intro stream next rest place next_stops
  simp only [List.append_assoc, List.cons_append] at place
  obtain ⟨_, atKeyword, place⟩ := expect_at place (by simp) isWhile (by decide)
  obtain ⟨_, atOpener, place⟩ := expect_at place (by simp) opens (by decide)
  obtain ⟨_, atCondition, place⟩ := condition place (.of_kind closes (by decide))
  obtain ⟨_, atCloser, place⟩ := expect_at place (by simp) closes (by decide)
  obtain ⟨after, atBody, place⟩ := body place next_stops
  refine ⟨after, ?_, place⟩
  simp only [whileStatementBody, expectKind, bind_run, pure_run, atKeyword, atOpener, atCondition,
    atCloser, atBody]

/-- An expression that is missing where its span is empty. -/
theorem expressionUnless_reads {stop : Kind}
    (free : stop ∉ openers .expression ∧ stop ∉ continuations .expression ∧ stop ≠ .elseWord)
    (derivation : span ≠ [] → Derives .expression false span node)
    (reads : span ≠ [] → Reads turns (parse .expression) (Stops .expression false) span node) :
    Reads turns (expressionUnless parse stop) (fun next => next.kind = stop) span
      (if span = [] then .absent else node) := by
  intro stream next rest place ends
  by_cases empty : span = []
  · subst empty
    refine ⟨stream, ?_, place⟩
    rw [expressionUnless, bind_of_ok _ (check_at stop place), decide_eq_true ends]
    rfl
  · obtain ⟨first, more, same, opens⟩ := (derivation empty).first_token
    have different : first.kind ≠ stop := fun same => free.1 (same ▸ opens)
    have atFirst := check_at stop (same ▸ place)
    obtain ⟨after, success, place⟩ := reads empty place (.of_kind ends free.2)
    refine ⟨after, ?_, place⟩
    rw [expressionUnless, bind_of_ok _ atFirst]
    simpa [different, empty] using success

theorem forInitializer_reads {clause : Phrase}
    (starts : clause ∈ [Phrase.variableDeclaration, .expressionStatement])
    (derivation : span ≠ [] → Derives clause false (span ++ [semicolon]) node)
    (reads : span ≠ [] → Reads turns (parse clause) (Stops clause false) (span ++ [semicolon]) node)
    (ends : semicolon.kind = .semicolon) :
    Reads turns (forInitializer parse) (fun next => next.kind ≠ .elseWord) (span ++ [semicolon])
      (if span = [] then .absent else node) := by
  intro stream next rest place noElse
  by_cases empty : span = []
  · subst empty
    obtain ⟨after, atEnd, place⟩ :=
      accept_at place (by simp) (List.mem_singleton.mpr ends) (by decide)
    refine ⟨after, ?_, place⟩
    rw [forInitializer, bind_of_ok _ atEnd]
    rfl
  · obtain ⟨first, more, same, opens⟩ := (derivation empty).first_token
    have notEnd : first.kind ∉ [Kind.semicolon] := by
      intro isEnd
      rw [List.mem_singleton.mp isEnd] at opens
      simp only [List.mem_cons, List.not_mem_nil, or_false] at starts
      rcases starts with rfl | rfl <;> exact absurd opens (by decide)
    have noEnd := accept_at_none [.semicolon] (same ▸ place) notEnd
    have atFirst := check_at .varWord (same ▸ place)
    have choice : forInitializer parse stream =
        (if first.kind = .varWord then parse .variableDeclaration else parse .expressionStatement)
          stream := by
      simp only [forInitializer, bind_run, noEnd, atFirst, decide_eq_true_eq]
    obtain ⟨after, success, place⟩ := reads empty place
      ⟨by rcases List.mem_cons.mp starts with rfl | rest <;> simp_all [continuations], fun _ => noElse⟩
    refine ⟨after, ?_, place⟩
    rw [choice, if_neg empty]
    simp only [List.mem_cons, List.not_mem_nil, or_false] at starts
    rcases starts with rfl | rfl
    · simp only [openers, List.mem_singleton] at opens
      simpa [opens] using success
    · have notVar : first.kind ≠ .varWord := by
        intro isVar
        rw [isVar] at opens
        exact absurd opens (by decide)
      simpa [notVar] using success

/-- A loop with missing clauses, written out. -/
theorem expandFor_clauses {first second third : List Token} {initializer condition increment : Node}
    (hasInitializer : first ≠ [] → initializer.isAbsent = false)
    (hasCondition : second ≠ [] → condition.isAbsent = false)
    (hasIncrement : third ≠ [] → increment.isAbsent = false) :
    Node.expandFor line (if first = [] then .absent else initializer)
        (if second = [] then .absent else condition) (if third = [] then .absent else increment) node =
      .block line ((if first = [] then [] else [initializer]) ++
        [.whileStmt line (if second = [] then .literal line (.bool true) else condition)
          (.block line (node :: if third = [] then [] else [.exprStmt line increment]))]) := by
  have gone : Node.absent.isAbsent = true := rfl
  unfold Node.expandFor
  by_cases noFirst : first = [] <;> by_cases noSecond : second = [] <;>
    by_cases noThird : third = [] <;> simp [*]

/-- The token after the first clause of a loop starts the condition or ends it. -/
theorem exists_condition_start {next : Token} (rest : List Token)
    (condition : span ≠ [] → Derives .expression false span node) (ends : next.kind = .semicolon) :
    ∃ following more, span ++ next :: rest = following :: more ∧ following.kind ≠ .elseWord := by
  by_cases empty : span = []
  · subst empty
    exact ⟨next, _, rfl, by simp [ends]⟩
  · obtain ⟨following, more, rfl, found⟩ := (condition empty).first_token
    refine ⟨following, _, rfl, fun isElse => ?_⟩
    rw [isElse] at found
    exact absurd found (by decide)

theorem forLoop_reads {clause : Phrase} {first second third : List Token}
    {initializerNode conditionNode incrementNode : Node} {firstEnd secondEnd : Token}
    (isFor : keyword.kind = .forWord) (opens : opener.kind = .leftParen)
    (starts : clause ∈ [Phrase.variableDeclaration, .expressionStatement])
    (initializer : first ≠ [] → Derives clause false (first ++ [firstEnd]) initializerNode)
    (readsFirst : first ≠ [] →
      Reads turns (parse clause) (Stops clause false) (first ++ [firstEnd]) initializerNode)
    (endsFirst : firstEnd.kind = .semicolon)
    (condition : second ≠ [] → Derives .expression false second conditionNode)
    (readsSecond : second ≠ [] →
      Reads turns (parse .expression) (Stops .expression false) second conditionNode)
    (endsSecond : secondEnd.kind = .semicolon)
    (increment : third ≠ [] → Derives .expression false third incrementNode)
    (readsThird : third ≠ [] →
      Reads turns (parse .expression) (Stops .expression false) third incrementNode)
    (closes : closer.kind = .rightParen) (body : Reads turns (parse .statement) stops span node) :
    Reads turns (forStatementBody parse) stops
      (keyword :: opener :: first ++ firstEnd :: second ++ secondEnd :: third ++ closer :: span)
      (.block keyword.line ((if first = [] then [] else [initializerNode]) ++
        [.whileStmt keyword.line
          (if second = [] then .literal keyword.line (.bool true) else conditionNode)
          (.block keyword.line
            (node :: if third = [] then [] else [.exprStmt keyword.line incrementNode]))])) := by
  intro stream next rest place next_stops
  have shape : keyword :: opener :: first ++ firstEnd :: second ++ secondEnd :: third ++
      closer :: span ++ next :: rest = keyword :: opener :: ((first ++ [firstEnd]) ++
        (second ++ secondEnd :: (third ++ closer :: (span ++ next :: rest)))) := by simp
  rw [shape] at place
  obtain ⟨_, atKeyword, place⟩ := expect_at place (by simp) isFor (by decide)
  obtain ⟨_, atOpener, place⟩ := expect_at place (by simp) opens (by decide)
  obtain ⟨following, more, same, noElse⟩ :=
    exists_condition_start (third ++ closer :: (span ++ next :: rest)) condition endsSecond
  obtain ⟨_, atFirst, place⟩ :=
    forInitializer_reads starts initializer readsFirst endsFirst (same ▸ place) noElse
  rw [← same] at place
  obtain ⟨_, atSecond, place⟩ :=
    expressionUnless_reads (by decide) condition readsSecond place endsSecond
  obtain ⟨_, atSecondEnd, place⟩ := expect_at place (by simp) endsSecond (by decide)
  obtain ⟨_, atThird, place⟩ := expressionUnless_reads (by decide) increment readsThird place closes
  obtain ⟨_, atCloser, place⟩ := expect_at place (by simp) closes (by decide)
  obtain ⟨after, atBody, place⟩ := body place next_stops
  refine ⟨after, ?_, place⟩
  rw [← expandFor_clauses (fun empty => (initializer empty).present)
    (fun empty => (condition empty).present) (fun empty => (increment empty).present)]
  simp only [forStatementBody, expectKind, bind_run, pure_run, atKeyword, atOpener, atFirst, atSecond,
    atSecondEnd, atThird, atCloser, atBody]

/-- The value is missing where its span is empty. -/
theorem return_reads (isReturn : keyword.kind = .returnWord)
    (derivation : span ≠ [] → Derives .expression false span node)
    (reads : span ≠ [] → Reads turns (parse .expression) (Stops .expression false) span node)
    (ends : semicolon.kind = .semicolon) :
    Reads turns (returnStatementBody parse) stops (keyword :: span ++ [semicolon])
      (.returnStmt keyword.line (if span = [] then .absent else node)) := by
  intro stream next rest place _
  simp only [List.append_assoc, List.cons_append, List.nil_append] at place
  obtain ⟨_, atKeyword, place⟩ := expect_at place (by simp) isReturn (by decide)
  obtain ⟨_, atValue, place⟩ := expressionUnless_reads (by decide) derivation reads place ends
  obtain ⟨after, atEnd, place⟩ := expect_at place (by simp) ends (by decide)
  refine ⟨after, ?_, place⟩
  simp only [returnStatementBody, expectKind, bind_run, pure_run, atKeyword, atValue, atEnd]

/-- What follows a declaration, be it another one or not, is no `else`. -/
theorem following_declaration {next : Token} {parts : List (List Token × Node)} (rest : List Token)
    (derivations : ∀ part ∈ parts, Derives .declaration false part.1 part.2)
    (noElse : next.kind ≠ .elseWord) :
    ∃ following tail, (parts.map Prod.fst).flatten ++ next :: rest = following :: tail ∧
      Stops .declaration false following := by
  cases parts with
  | nil => exact ⟨next, rest, rfl, by simp [continuations], fun _ => noElse⟩
  | cons part parts =>
    obtain ⟨following, more, same, found⟩ := (derivations part (by simp)).first_token
    refine ⟨following, more ++ ((parts.map Prod.fst).flatten ++ next :: rest), by simp [same],
      by simp [continuations], ?_⟩
    exact fun _ isElse => absurd (isElse ▸ found) (by decide)

theorem declarations_reads {next : Token} {parts : List (List Token × Node)} (found : Array Node)
    (derivations : ∀ part ∈ parts, Derives .declaration false part.1 part.2)
    (reads : ∀ part ∈ parts,
      Reads turns (parse .declaration) (Stops .declaration false) part.1 part.2)
    (ends : next.kind = .rightBrace) (enough : parts.length ≤ loops)
    (place : stream.At turns ((parts.map Prod.fst).flatten ++ next :: rest)) :
    ∃ after, declarations parse found loops stream = .ok (found ++ (parts.map Prod.snd).toArray) after ∧
      after.At turns (next :: rest) := by
  induction parts generalizing stream found loops with
  | nil =>
    refine ⟨stream, ?_, place⟩
    cases loops with
    | zero => simp [declarations, pure_run]
    | succ loops => simp [declarations, bind_run, check_at _ place, ends, pure_run]
  | cons part parts ih =>
    cases loops with
    | zero => simp at enough
    | succ loops =>
      have others : ∀ part ∈ parts, Derives .declaration false part.1 part.2 :=
        fun part member => derivations part (by simp [member])
      obtain ⟨following, tail, shape, stops⟩ :=
        following_declaration rest others (show next.kind ≠ .elseWord by simp [ends])
      simp only [List.map_cons, List.flatten_cons, List.append_assoc] at place
      obtain ⟨first, more, same, opens⟩ := (derivations part (by simp)).first_token
      have notBrace : first.kind ≠ .rightBrace := fun same => absurd (same ▸ opens) (by decide)
      have notEnd : first.kind ≠ .endOfInput := fun same => absurd (same ▸ opens) (by decide)
      have atBrace := check_at .rightBrace (same ▸ place)
      have atEnd := check_at .endOfInput (same ▸ place)
      obtain ⟨_, atPart, place⟩ := reads part (by simp) (shape ▸ place) stops
      obtain ⟨after, atRest, place⟩ := ih (found.push part.2) others
        (fun part member => reads part (by simp [member])) (Nat.le_of_succ_le_succ enough)
        (shape ▸ place)
      refine ⟨after, ?_, place⟩
      simp [declarations, bind_run, atBrace, atEnd, notBrace, notEnd, atPart, atRest]

theorem block_reads {parts : List (List Token × Node)} (opens : opener.kind = .leftBrace)
    (derivations : ∀ part ∈ parts, Derives .declaration false part.1 part.2)
    (reads : ∀ part ∈ parts,
      Reads turns (parse .declaration) (Stops .declaration false) part.1 part.2)
    (closes : closer.kind = .rightBrace) :
    Reads turns (blockBody parse turns) stops (opener :: (parts.map Prod.fst).flatten ++ [closer])
      (.block opener.line (parts.map Prod.snd)) := by
  intro stream next rest place _
  simp only [List.append_assoc, List.cons_append, List.nil_append] at place
  have enough : parts.length ≤ turns := by
    have count := length_le_flatten fun part member => (derivations part member).span_ne_nil
    have room := place.2
    simp only [List.length_cons, List.length_append] at room
    omega
  obtain ⟨_, atOpener, place⟩ := expect_at place (by simp) opens (by decide)
  obtain ⟨_, atParts, place⟩ := declarations_reads #[] derivations reads closes enough place
  obtain ⟨after, atCloser, place⟩ := expect_at place (by simp) closes (by decide)
  refine ⟨after, ?_, place⟩
  simp only [blockBody, bind_run, pure_run, atOpener, atParts, atCloser]
  simp

theorem expressionStatement_reads {first : Token}
    (expression : Reads turns (parse .expression) (Stops .expression false) (first :: span) node)
    (ends : semicolon.kind = .semicolon) :
    Reads turns (expressionStatementBody parse) stops (first :: span ++ [semicolon])
      (.exprStmt first.line node) := by
  intro stream next rest place _
  simp only [List.append_assoc, List.cons_append, List.nil_append] at place
  have here := Stream.current_of_remaining place.1
  obtain ⟨_, atExpression, place⟩ := expression place (.of_kind ends (by decide))
  obtain ⟨after, atEnd, place⟩ := expect_at place (by simp) ends (by decide)
  refine ⟨after, ?_, place⟩
  simp only [expressionStatementBody, bind_run, pure_run, current_run, here, atExpression, atEnd]

theorem moreParams_reads {next : Token} {params inner : List Token} (found : Array String)
    (isParam : ∀ param ∈ params, param.kind = .identifier)
    (joined : Following .comma (params.map fun param => [param]) inner)
    (ends : next.kind = .rightParen) (enough : params.length ≤ loops)
    (place : stream.At turns (inner ++ next :: rest)) :
    ∃ after, moreParams found loops stream =
        .ok (found ++ (params.map Token.lexeme).toArray) after ∧ after.At turns (next :: rest) := by
  induction params generalizing stream found loops inner with
  | nil =>
    cases joined
    refine ⟨stream, ?_, place⟩
    cases loops with
    | zero => simp [moreParams, pure_run]
    | succ loops =>
      have noComma := accept_at_none [.comma] place (by simp [ends])
      simp [moreParams, bind_run, noComma, pure_run]
  | cons param params ih =>
    cases joined with
    | @more _ tail _ comma isComma joined =>
      cases loops with
      | zero => simp at enough
      | succ loops =>
        simp only [List.cons_append, List.nil_append] at place
        obtain ⟨_, atComma, place⟩ :=
          accept_at place (by simp) (List.mem_singleton.mpr isComma) (by decide)
        obtain ⟨_, atParam, place⟩ := expect_at place (by simp) (isParam param (by simp)) (by decide)
        obtain ⟨after, atRest, place⟩ := ih (found.push param.lexeme)
          (fun param member => isParam param (by simp [member])) joined
          (Nat.le_of_succ_le_succ enough) place
        refine ⟨after, ?_, place⟩
        simp [moreParams, bind_run, atComma, atParam, atRest]

theorem params_reads {next : Token} {found inner : List Token}
    (isParam : ∀ param ∈ found, param.kind = .identifier)
    (joined : Separated .comma (found.map fun param => [param]) inner)
    (ends : next.kind = .rightParen) (place : stream.At turns (inner ++ next :: rest)) :
    ∃ after, params turns stream = .ok (found.map Token.lexeme).toArray after ∧
      after.At turns (next :: rest) := by
  cases found with
  | nil =>
    cases joined
    refine ⟨stream, ?_, place⟩
    simp [params, bind_run, check_at _ place, ends, pure_run]
  | cons param found =>
    cases joined with
    | @some _ tail _ joined =>
      simp only [List.cons_append, List.nil_append] at place
      have isName := isParam param (by simp)
      have enough : found.length ≤ turns := by
        have count := joined.length_le
        have room := place.2
        simp only [List.length_cons, List.length_append, List.length_map] at room count
        omega
      have atFirst := check_at .rightParen place
      obtain ⟨_, atParam, place⟩ := expect_at place (by simp) isName (by decide)
      obtain ⟨after, atRest, place⟩ := moreParams_reads #[param.lexeme]
        (fun param member => isParam param (by simp [member])) joined ends enough place
      refine ⟨after, ?_, place⟩
      simp [params, bind_run, atFirst, isName, atParam, atRest]

theorem function_reads {params inner : List Token} (isFn : keyword.kind = .fnWord)
    (isName : name.kind = .identifier) (opens : opener.kind = .leftParen)
    (isParam : ∀ param ∈ params, param.kind = .identifier)
    (joined : Separated .comma (params.map fun param => [param]) inner)
    (closes : closer.kind = .rightParen) (body : Reads turns (parse .block) stops span node) :
    Reads turns (functionDeclarationBody parse turns) stops
      (keyword :: name :: opener :: inner ++ closer :: span)
      (.fnDecl keyword.line name.lexeme (params.map Token.lexeme) node) := by
  intro stream next rest place next_stops
  simp only [List.append_assoc, List.cons_append] at place
  obtain ⟨_, atKeyword, place⟩ := expect_at place (by simp) isFn (by decide)
  obtain ⟨_, atName, place⟩ := expect_at place (by simp) isName (by decide)
  obtain ⟨_, atOpener, place⟩ := expect_at place (by simp) opens (by decide)
  obtain ⟨_, atParams, place⟩ := params_reads isParam joined closes place
  obtain ⟨_, atCloser, place⟩ := expect_at place (by simp) closes (by decide)
  obtain ⟨_, atBody, place⟩ := body place next_stops
  obtain ⟨after, noted, place⟩ := noteFunction_at name.lexeme params.length place
  refine ⟨after, ?_, place⟩
  simp only [functionDeclarationBody, expectKind, bind_run, pure_run, atKeyword, atName, atOpener,
    atParams, atCloser, atBody, List.size_toArray, List.length_map, noted]

end

end Scriptlet.Grammar
