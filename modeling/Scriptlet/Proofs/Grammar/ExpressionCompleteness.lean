import Scriptlet.Proofs.Grammar.StatementCompleteness

/-! Expressions that the grammar derives are read by the parser. A level that recurs on the left is
read by a loop, so for it more is shown than that its phrases are read: a part of such a phrase
leads to the loop with the tree of that part on the left. -/
namespace Scriptlet.Grammar

open Scriptlet.Action Parse Phrase

/-- The token after an item is the separator of the next one, or else what follows the list. -/
theorem Following.first_token {next : Token} (rest : List Token)
    (joined : Following separator spans tail) :
    ∃ first more, tail ++ next :: rest = first :: more ∧
      (first.kind = separator ∨ first = next) := by
  cases joined with
  | none => exact ⟨next, rest, rfl, .inr rfl⟩
  | more separates _ => exact ⟨_, _, rfl, .inl separates⟩

/-- What comes after an argument does not carry on its expression. -/
theorem Following.stops {next : Token} (rest : List Token) (joined : Following .comma spans tail)
    (ends : next.kind = .rightParen) :
    ∃ first more, tail ++ next :: rest = first :: more ∧ Stops .expression false first := by
  obtain ⟨first, more, same, separates⟩ := joined.first_token rest
  refine ⟨first, more, same, ?_⟩
  rcases separates with isComma | rfl
  · exact .of_kind isComma (by decide)
  · exact .of_kind ends (by decide)

theorem Separated.length_le (joined : Separated separator spans tail) :
    spans.length ≤ tail.length + 1 := by
  cases joined with
  | none => simp
  | some rest =>
    have count := rest.length_le
    simp only [List.length_cons, List.length_append]
    omega

/-- After `span` the parser is in the loop, with `node` on the left and enough turns for the tokens
that remain. -/
def Reaches (turns : Nat) (start : Parse Node) (loop : Node → Nat → Parse Node)
    (stops : Token → Prop) (span : List Token) (node : Node) : Prop :=
  ∀ ⦃stream next rest⦄, stream.At turns (span ++ next :: rest) → stops next →
    ∃ left after, start stream = loop node left after ∧ after.At turns (next :: rest) ∧
      rest.length < left

section

variable {parse : Phrase → Parse Node} {turns : Nat} {stops : Token → Prop} {operand : Phrase}
variable {operators : List Kind} {keyword token operator opener closer : Token}
variable {span leftSpan inner : List Token} {node leftNode : Node}

theorem chain_starts (reads : Reads turns (parse operand) stops span node) :
    Reaches turns (chain parse operand operators turns) (chainRest parse operand operators) stops
      span node := by
  intro stream next rest place next_stops
  obtain ⟨after, atOperand, place⟩ := reads place next_stops
  exact ⟨turns, after, bind_of_ok _ atOperand, place, place.2⟩

theorem chain_continues
    (left : Reaches turns (chain parse operand operators turns) (chainRest parse operand operators)
      (Stops operand false) leftSpan leftNode)
    (listed : operator.kind ∈ operators) (real : Kind.endOfInput ∉ operators)
    (ends : Stops operand false operator)
    (right : Reads turns (parse operand) stops span node) :
    Reaches turns (chain parse operand operators turns) (chainRest parse operand operators) stops
      (leftSpan ++ operator :: span) (.binary operator.line operator.lexeme leftNode node) := by
  intro stream next rest place next_stops
  simp only [List.append_assoc, List.cons_append] at place
  obtain ⟨left, _, atLeft, place, room⟩ := left place ends
  cases left with
  | zero => simp at room
  | succ left =>
    obtain ⟨_, atOperator, place⟩ := accept_at place (by simp) listed real
    obtain ⟨after, atRight, place⟩ := right place next_stops
    refine ⟨left, after, ?_, place, ?_⟩
    · simp only [atLeft, chainRest, bind_run, atOperator, atRight]
    · simp only [List.length_append, List.length_cons] at room
      omega

theorem chain_ends
    (reaches : Reaches turns (chain parse operand operators turns)
      (chainRest parse operand operators) stops span node) :
    Reads turns (chain parse operand operators turns)
      (fun next => stops next ∧ next.kind ∉ operators) span node := by
  intro stream next rest place ⟨next_stops, unlisted⟩
  obtain ⟨left, after, atLoop, place, room⟩ := reaches place next_stops
  refine ⟨after, ?_, place⟩
  cases left with
  | zero => simp at room
  | succ left => simp only [atLoop, chainRest, bind_run, accept_at_none _ place unlisted, pure_run]

theorem assignment_reads {targetSpan : List Token} {equals : Token}
    (target : Reads turns (parse .equality) (Stops .equality false) targetSpan (.reference line name))
    (isAssign : equals.kind = .assign) (value : Reads turns (parse .assignment) stops span node) :
    Reads turns (assignmentBody parse) stops (targetSpan ++ equals :: span)
      (.assignment line name node) := by
  intro stream next rest place next_stops
  simp only [List.append_assoc, List.cons_append] at place
  obtain ⟨_, atTarget, place⟩ := target place (.of_kind isAssign (by decide))
  obtain ⟨_, atEquals, place⟩ :=
    accept_at place (by simp) (List.mem_singleton.mpr isAssign) (by decide)
  obtain ⟨after, atValue, place⟩ := value place next_stops
  refine ⟨after, ?_, place⟩
  simp only [assignmentBody, bind_run, pure_run, atTarget, atEquals, atValue]

theorem equality_reads (reads : Reads turns (parse .equality) stops span node) :
    Reads turns (assignmentBody parse) (fun next => stops next ∧ next.kind ≠ .assign) span node := by
  intro stream next rest place ⟨next_stops, noAssign⟩
  obtain ⟨after, atTarget, place⟩ := reads place next_stops
  have noEquals := accept_at_none [.assign] place (by simpa using noAssign)
  refine ⟨after, ?_, place⟩
  simp only [assignmentBody, bind_run, pure_run, atTarget, noEquals]

theorem unary_reads (listed : operator.kind ∈ [Kind.bang, Kind.minus])
    (operand : Reads turns (parse .unary) stops span node) :
    Reads turns (unaryBody parse) stops (operator :: span)
      (.unary operator.line operator.lexeme node) := by
  intro stream next rest place next_stops
  simp only [List.cons_append] at place
  obtain ⟨_, atOperator, place⟩ := accept_at place (by simp) listed (by decide)
  obtain ⟨after, atOperand, place⟩ := operand place next_stops
  refine ⟨after, ?_, place⟩
  simp only [unaryBody, bind_run, pure_run, atOperator, atOperand]

theorem callOnly_reads (derivation : Derives .call beforeElse span node)
    (reads : Reads turns (parse .call) stops span node) :
    Reads turns (unaryBody parse) stops span node := by
  intro stream next rest place next_stops
  obtain ⟨first, more, rfl, opens⟩ := derivation.first_token
  have noOperator := accept_at_none [.bang, .minus] place fun listed => by
    simp only [List.mem_cons, List.not_mem_nil, or_false] at listed
    rcases listed with same | same <;> exact absurd (same ▸ opens) (by decide)
  obtain ⟨after, atCall, place⟩ := reads place next_stops
  refine ⟨after, ?_, place⟩
  simp only [unaryBody, bind_run, noOperator, atCall]

theorem moreArguments_reads {next : Token} {parts : List (List Token × Node)} (found : Array Node)
    (reads : ∀ part ∈ parts, Reads turns (parse .expression) (Stops .expression false) part.1 part.2)
    (joined : Following .comma (parts.map Prod.fst) inner) (ends : next.kind = .rightParen)
    (enough : parts.length ≤ loops) (place : stream.At turns (inner ++ next :: rest)) :
    ∃ after, moreArguments parse found loops stream =
        .ok (found ++ (parts.map Prod.snd).toArray) after ∧ after.At turns (next :: rest) := by
  induction parts generalizing stream found loops inner with
  | nil =>
    cases joined
    refine ⟨stream, ?_, place⟩
    cases loops with
    | zero => simp [moreArguments, pure_run]
    | succ loops =>
      have noComma := accept_at_none [.comma] place (by simp [ends])
      simp [moreArguments, bind_run, noComma, pure_run]
  | cons part parts ih =>
    cases joined with
    | @more _ tail _ comma isComma joined =>
      cases loops with
      | zero => simp at enough
      | succ loops =>
        simp only [List.append_assoc, List.cons_append] at place
        obtain ⟨_, atComma, place⟩ :=
          accept_at place (by simp) (List.mem_singleton.mpr isComma) (by decide)
        obtain ⟨following, more, same, stops⟩ := joined.stops rest ends
        obtain ⟨_, atPart, place⟩ := reads part (by simp) (same ▸ place) stops
        obtain ⟨after, atRest, place⟩ := ih (found.push part.2)
          (fun part member => reads part (by simp [member])) joined
          (Nat.le_of_succ_le_succ enough) (same ▸ place)
        refine ⟨after, ?_, place⟩
        simp [moreArguments, bind_run, atComma, atPart, atRest]

theorem arguments_reads {next : Token} {parts : List (List Token × Node)}
    (derivations : ∀ part ∈ parts, Derives .expression false part.1 part.2)
    (reads : ∀ part ∈ parts, Reads turns (parse .expression) (Stops .expression false) part.1 part.2)
    (joined : Separated .comma (parts.map Prod.fst) inner) (ends : next.kind = .rightParen)
    (place : stream.At turns (inner ++ next :: rest)) :
    ∃ after, arguments parse turns stream = .ok (parts.map Prod.snd).toArray after ∧
      after.At turns (next :: rest) := by
  cases parts with
  | nil =>
    cases joined
    refine ⟨stream, ?_, place⟩
    simp [arguments, bind_run, check_at _ place, ends, pure_run]
  | cons part parts =>
    cases joined with
    | @some _ tail _ joined =>
      simp only [List.append_assoc] at place
      have enough : parts.length ≤ turns := by
        have count := joined.length_le
        have room := place.2
        simp only [List.length_append, List.length_map] at room count
        omega
      obtain ⟨first, more, same, opens⟩ := (derivations part (by simp)).first_token
      have different : first.kind ≠ .rightParen := fun same => absurd (same ▸ opens) (by decide)
      have atFirst := check_at .rightParen (same ▸ place)
      obtain ⟨following, after, shape, stops⟩ := joined.stops rest ends
      obtain ⟨_, atPart, place⟩ := reads part (by simp) (shape ▸ place) stops
      obtain ⟨after, atRest, place⟩ := moreArguments_reads #[part.2]
        (fun part member => reads part (by simp [member])) joined ends enough (shape ▸ place)
      refine ⟨after, ?_, place⟩
      simp [arguments, bind_run, atFirst, different, atPart, atRest]

theorem call_starts (reads : Reads turns (parse .primary) stops span node) :
    Reaches turns (callBody parse turns) (callRest parse turns) stops span node := by
  intro stream next rest place next_stops
  obtain ⟨after, atCallee, place⟩ := reads place next_stops
  exact ⟨turns, after, bind_of_ok _ atCallee, place, place.2⟩

theorem call_continues {parts : List (List Token × Node)}
    (callee : Reaches turns (callBody parse turns) (callRest parse turns) (Stops .primary false)
      leftSpan leftNode)
    (opens : opener.kind = .leftParen)
    (derivations : ∀ part ∈ parts, Derives .expression false part.1 part.2)
    (reads : ∀ part ∈ parts, Reads turns (parse .expression) (Stops .expression false) part.1 part.2)
    (joined : Separated .comma (parts.map Prod.fst) inner) (closes : closer.kind = .rightParen) :
    Reaches turns (callBody parse turns) (callRest parse turns) stops
      (leftSpan ++ opener :: inner ++ [closer])
      (.call opener.line leftNode (parts.map Prod.snd)) := by
  intro stream next rest place _
  simp only [List.append_assoc, List.cons_append, List.nil_append] at place
  obtain ⟨left, _, atCallee, place, room⟩ := callee place (.of_kind opens (by decide))
  cases left with
  | zero => simp at room
  | succ left =>
    obtain ⟨_, atOpener, place⟩ :=
      accept_at place (by simp) (List.mem_singleton.mpr opens) (by decide)
    obtain ⟨_, atArguments, place⟩ := arguments_reads derivations reads joined closes place
    obtain ⟨after, atCloser, place⟩ := expect_at place (by simp) closes (by decide)
    refine ⟨left, after, ?_, place, ?_⟩
    · simp only [atCallee, callRest, bind_run, atOpener, atArguments, atCloser]
    · simp only [List.length_append, List.length_cons] at room
      omega

theorem call_ends
    (reaches : Reaches turns (callBody parse turns) (callRest parse turns) stops span node) :
    Reads turns (callBody parse turns) (fun next => stops next ∧ next.kind ≠ .leftParen)
      span node := by
  intro stream next rest place ⟨next_stops, noParen⟩
  obtain ⟨left, after, atLoop, place, room⟩ := reaches place next_stops
  have noOpener := accept_at_none [.leftParen] place (by simpa using noParen)
  refine ⟨after, ?_, place⟩
  cases left with
  | zero => simp at room
  | succ left => simp only [atLoop, callRest, bind_run, noOpener, pure_run]

theorem number_reads (isNumber : token.kind = .number)
    (value : Number.read? token.lexeme = some number) :
    Reads turns (primaryBody parse) stops [token] (.literal token.line (.number number)) := by
  intro stream next rest place _
  have here := Stream.current_of_remaining place.1
  have place := place.next (by simp) (by simp [isNumber])
  refine ⟨stream.next, ?_, place⟩
  simp only [primaryBody, bind_run, pure_run, current_run, advance_run, here, isNumber, value]

theorem constant_reads (value : token.kind.constant? = some scalar) :
    Reads turns (primaryBody parse) stops [token] (.literal token.line scalar) := by
  intro stream next rest place _
  have here := Stream.current_of_remaining place.1
  have real : token.kind ≠ .endOfInput := by
    intro ended
    simp [ended, Kind.constant?] at value
  have place := place.next (by simp) real
  refine ⟨stream.next, ?_, place⟩
  have known : (token.kind = .trueWord ∧ scalar = .bool true) ∨
      (token.kind = .falseWord ∧ scalar = .bool false) ∨
      (token.kind = .nullWord ∧ scalar = .null) := by
    cases same : token.kind <;> simp_all [Kind.constant?]
  rcases known with ⟨isWord, rfl⟩ | ⟨isWord, rfl⟩ | ⟨isWord, rfl⟩ <;>
    simp only [primaryBody, bind_run, pure_run, current_run, advance_run, here, isWord]

theorem reference_reads (isName : token.kind = .identifier) :
    Reads turns (primaryBody parse) stops [token] (.reference token.line token.lexeme) := by
  intro stream next rest place _
  have here := Stream.current_of_remaining place.1
  have place := place.next (by simp) (by simp [isName])
  refine ⟨stream.next, ?_, place⟩
  simp only [primaryBody, bind_run, pure_run, current_run, advance_run, here, isName]

theorem group_reads (opens : opener.kind = .leftParen)
    (expression : Reads turns (parse .expression) (Stops .expression false) span node)
    (closes : closer.kind = .rightParen) :
    Reads turns (primaryBody parse) stops (opener :: span ++ [closer]) node := by
  intro stream next rest place _
  simp only [List.append_assoc, List.cons_append, List.nil_append] at place
  have here := Stream.current_of_remaining place.1
  have place := place.next (by simp) (by simp [opens])
  obtain ⟨_, atExpression, place⟩ := expression place (.of_kind closes (by decide))
  obtain ⟨after, atCloser, place⟩ := expect_at place (by simp) closes (by decide)
  refine ⟨after, ?_, place⟩
  simp only [primaryBody, bind_run, pure_run, current_run, advance_run, here, opens, atExpression,
    atCloser]

theorem matchOnly_reads (derivation : Derives .matching beforeElse span node)
    (reads : Reads turns (parse .matching) stops span node) :
    Reads turns (primaryBody parse) stops span node := by
  intro stream next rest place next_stops
  obtain ⟨first, more, rfl, opens⟩ := derivation.first_token
  have here := Stream.current_of_remaining place.1
  obtain ⟨after, atMatch, place⟩ := reads place next_stops
  refine ⟨after, ?_, place⟩
  have isMatch : first.kind = .matchWord := by simpa [openers] using opens
  simp only [primaryBody, bind_run, current_run, here, isMatch, atMatch]

theorem arm_reads {item : Arm}
    (pattern : Reads turns (parse .expression) (Stops .expression false) item.pattern
      item.patternNode)
    (body : Reads turns (parse .expression) (Stops .expression false) item.body item.bodyNode) :
    Reads turns (arm parse) (Stops .expression false) item.span item.node := by
  intro stream next rest place next_stops
  simp only [Arm.span, List.append_assoc, List.cons_append] at place
  obtain ⟨_, atKeyword, place⟩ := expect_at place (by simp) item.isCase (by decide)
  obtain ⟨_, atPattern, place⟩ := pattern place (.of_kind item.isArrow (by decide))
  obtain ⟨_, atArrow, place⟩ := expect_at place (by simp) item.isArrow (by decide)
  obtain ⟨after, atBody, place⟩ := body place next_stops
  refine ⟨after, ?_, place⟩
  simp only [arm, bind_run, pure_run, atKeyword, atPattern, atArrow, atBody, Arm.node]

theorem arms_end (found : Array Node) (closes : closer.kind = .rightBrace)
    (place : stream.At turns (closer :: rest)) :
    arms parse found loops stream = .ok found stream := by
  cases loops with
  | zero => rfl
  | succ loops => simp [arms, bind_run, check_at _ place, closes, pure_run]

theorem arms_reads {items : List Arm} {extra : List Token} (found : Array Node)
    (reads : ∀ item ∈ items, Reads turns (arm parse) (Stops .expression false) item.span item.node)
    (joined : Separated .comma (items.map Arm.span) inner)
    (trailing : extra = [] ∨ items ≠ [] ∧ ∃ comma : Token, comma.kind = .comma ∧ extra = [comma])
    (closes : closer.kind = .rightBrace) (enough : items.length ≤ loops)
    (place : stream.At turns (inner ++ extra ++ closer :: rest)) :
    ∃ after, arms parse found loops stream = .ok (found ++ (items.map Arm.node).toArray) after ∧
      after.At turns (closer :: rest) := by
  induction items generalizing stream found loops inner with
  | nil =>
    cases joined
    simp only [ne_eq, not_true_eq_false, false_and, or_false] at trailing
    subst trailing
    exact ⟨stream, by simpa using arms_end found closes place, place⟩
  | cons item items ih =>
    cases joined with
    | @some _ tail _ joined =>
      cases loops with
      | zero => simp at enough
      | succ loops =>
        simp only [List.append_assoc] at place
        have isCase : check .rightBrace stream = .ok false stream := by
          rw [check_at .rightBrace place, item.isCase]
          rfl
        cases items with
        | nil =>
          cases joined
          rw [List.nil_append] at place
          rcases trailing with rfl | ⟨-, comma, isComma, rfl⟩
          · obtain ⟨after, atArm, place⟩ := reads item (by simp) place (.of_kind closes (by decide))
            have noComma := accept_at_none [.comma] place (by simp [closes])
            refine ⟨after, ?_, place⟩
            simp [arms, bind_run, isCase, atArm, noComma, pure_run]
          · obtain ⟨_, atArm, place⟩ := reads item (by simp) place (.of_kind isComma (by decide))
            obtain ⟨after, atComma, place⟩ :=
              accept_at place (by simp) (List.mem_singleton.mpr isComma) (by decide)
            refine ⟨after, ?_, place⟩
            simp [arms, bind_run, isCase, atArm, atComma, arms_end _ closes place]
        | cons other items =>
          cases joined with
          | @more _ tail _ comma isComma joined =>
            simp only [List.append_assoc, List.cons_append] at place
            obtain ⟨_, atArm, place⟩ := reads item (by simp) place (.of_kind isComma (by decide))
            obtain ⟨_, atComma, place⟩ :=
              accept_at place (by simp) (List.mem_singleton.mpr isComma) (by decide)
            obtain ⟨after, atRest, place⟩ := ih (found.push item.node)
              (fun item member => reads item (by simp [member])) (.some joined)
              (trailing.imp_right fun present => ⟨by simp, present.2⟩)
              (Nat.le_of_succ_le_succ enough) (by simpa using place)
            refine ⟨after, ?_, place⟩
            simp [arms, bind_run, isCase, atArm, atComma, atRest]

theorem matching_reads {items : List Arm} {subjectSpan extra : List Token} {subjectNode : Node}
    (isMatch : keyword.kind = .matchWord)
    (subject : Reads turns (parse .expression) (Stops .expression false) subjectSpan subjectNode)
    (opens : opener.kind = .leftBrace)
    (patterns : ∀ item ∈ items,
      Reads turns (parse .expression) (Stops .expression false) item.pattern item.patternNode)
    (bodies : ∀ item ∈ items,
      Reads turns (parse .expression) (Stops .expression false) item.body item.bodyNode)
    (joined : Separated .comma (items.map Arm.span) inner)
    (trailing : extra = [] ∨ items ≠ [] ∧ ∃ comma : Token, comma.kind = .comma ∧ extra = [comma])
    (closes : closer.kind = .rightBrace) :
    Reads turns (matchingBody parse turns) stops
      (keyword :: subjectSpan ++ opener :: inner ++ extra ++ [closer])
      (.matching keyword.line subjectNode (items.map Arm.node)) := by
  intro stream next rest place _
  simp only [List.append_assoc, List.cons_append, List.nil_append] at place
  have enough : items.length ≤ turns := by
    have count := joined.length_le
    have room := place.2
    simp only [List.length_append, List.length_cons, List.length_map] at room count
    omega
  obtain ⟨_, atKeyword, place⟩ := expect_at place (by simp) isMatch (by decide)
  obtain ⟨_, atSubject, place⟩ := subject place (.of_kind opens (by decide))
  obtain ⟨_, atOpener, place⟩ := expect_at place (by simp) opens (by decide)
  obtain ⟨_, atArms, place⟩ := arms_reads #[]
    (fun item member => arm_reads (patterns item member) (bodies item member)) joined trailing closes
    enough (by simpa using place)
  obtain ⟨after, atCloser, place⟩ := expect_at place (by simp) closes (by decide)
  refine ⟨after, ?_, place⟩
  simp only [matchingBody, expectKind, bind_run, pure_run, atKeyword, atSubject, atOpener, atArms,
    atCloser]
  simp

end

end Scriptlet.Grammar
