import Scriptlet.Proofs.Grammar.WellFormed
import Scriptlet.Proofs.Number.Exact

/-! Every well-formed tree can be written down. Operands, callees and the like go into parentheses
wherever they are not single tokens, so that no precedence has to be weighed. -/
namespace Scriptlet

open Node

namespace Phrase

/-- Whether the inner phrase alone can be the outer one, through so many alternatives. -/
def standsFor (inner : Phrase) : Nat → Phrase → Bool
  | 0, outer => inner = outer
  | steps + 1, outer => inner = outer || (alternatives outer).any (standsFor inner steps)

end Phrase

/-- Whether all tokens of a kind are written the same way. -/
def Kind.isFixed : Kind → Bool
  | .identifier | .number | .string | .endOfInput => false
  | _ => true

namespace Grammar

open Lexeme

theorem Derives.standing {inner outer : Phrase} (steps : Nat) (stands : inner.standsFor steps outer)
    (derivation : Derives inner beforeElse span node) : Derives outer beforeElse span node := by
  induction steps generalizing outer with
  | zero =>
    rw [Phrase.standsFor, decide_eq_true_eq] at stands
    rwa [← stands]
  | succ steps ih =>
    simp only [Phrase.standsFor, Bool.or_eq_true, decide_eq_true_eq, List.any_eq_true] at stands
    rcases stands with same | ⟨middle, listed, stands⟩
    · rwa [← same]
    · exact .alternative listed (ih stands)

/-- Tokens that the first line of a source may hold. -/
def Written (tokens : List Token) : Prop :=
  ∀ token ∈ tokens, Spelled token.kind token.lexeme.toList ∧ token.line = 1

theorem Written.append (first : Written left) (second : Written right) : Written (left ++ right) := by
  intro token member
  rcases List.mem_append.mp member with inLeft | inRight
  · exact first token inLeft
  · exact second token inRight

theorem Written.cons (spelled : Spelled kind text) (written : Written tokens) :
    Written (⟨kind, String.ofList text, 1⟩ :: tokens) := by
  intro token member
  rcases List.mem_cons.mp member with rfl | inside
  · exact ⟨by simpa using spelled, rfl⟩
  · exact written token inside

theorem Written.nil : Written [] := by
  intro token member
  cases member

theorem Written.flatten {spans : List (List Token)} (each : ∀ span ∈ spans, Written span) :
    Written spans.flatten := by
  intro token member
  obtain ⟨span, listed, inside⟩ := List.mem_flatten.mp member
  exact each span listed token inside

theorem keyword_spelled : ∀ keyword ∈ Kind.keywords, Spelled keyword.2 keyword.1.toList := by
  intro keyword listed
  have known : ∀ keyword ∈ Kind.keywords, Kind.ofWord keyword.1 = keyword.2 ∧
      keyword.1.toList.head?.any Text.isLetter ∧ keyword.1.toList.tail.all isWordChar := by
    decide +kernel
  obtain ⟨kind, starts, each⟩ := known keyword listed
  obtain ⟨first, starts, letter⟩ := (Option.any_eq_true _ _).mp starts
  have shape : keyword.1.toList = first :: keyword.1.toList.tail :=
    List.eq_cons_of_mem_head? starts
  have spelled := Spelled.word letter (List.all_eq_true.mp each)
  rwa [← shape, String.ofList_toList, kind] at spelled

/-- The text of all tokens of a kind. -/
def fixedText (kind : Kind) : List Char :=
  match marks.find? (·.2 = kind), Kind.keywords.find? (·.2 = kind) with
  | some mark, _ => mark.1
  | none, some keyword => keyword.1.toList
  | none, none => []

theorem fixedText_spelled (isFixed : kind.isFixed) : Spelled kind (fixedText kind) := by
  unfold fixedText
  split
  · rename_i mark found
    have same := List.find?_some found
    rw [decide_eq_true_eq] at same
    rw [← same]
    exact .mark (List.mem_of_find?_eq_some found)
  · rename_i keyword _ found
    have same := List.find?_some found
    rw [decide_eq_true_eq] at same
    rw [← same]
    exact keyword_spelled keyword (List.mem_of_find?_eq_some found)
  · rename_i unmarked notWord
    have found : marks.find? (·.2 = kind) ≠ none ∨ Kind.keywords.find? (·.2 = kind) ≠ none := by
      cases kind <;> first | decide | cases isFixed
    rcases found with marked | isWord
    · exact absurd unmarked marked
    · exact absurd notWord isWord

/-- The token of a kind that is always written the same way. -/
def fixed (kind : Kind) : Token :=
  ⟨kind, String.ofList (fixedText kind), 1⟩

theorem Written.symbol (isFixed : kind.isFixed) (written : Written tokens) :
    Written (fixed kind :: tokens) :=
  .cons (fixedText_spelled isFixed) written

/-- The token of a name. -/
def named (name : String) : Token :=
  ⟨.identifier, name, 1⟩

theorem Written.name {name : String} (isNamed : isName name) (written : Written tokens) :
    Written (named name :: tokens) := by
  have whole := Written.cons (isName.spelled isNamed) written
  rwa [String.ofList_toList] at whole

/-- A tree that can be written down as an operand, and so before anything. -/
def Atomic (span : List Token) (node : Node) : Prop :=
  Written span ∧ ∀ beforeElse, Derives .primary beforeElse span node

theorem Atomic.expression (atomic : Atomic span node) : Derives .expression false span node :=
  (atomic.2 false).standing 8 (by decide)

/-- An expression in parentheses is an operand. -/
theorem Derives.parenthesized (written : Written span) (derivation : Derives .expression false span node) :
    ∃ span, Atomic span node := by
  refine ⟨fixed .leftParen :: span ++ [fixed .rightParen], ?_, fun beforeElse => ?_⟩
  · exact .append (.symbol rfl written) (.symbol rfl .nil)
  · exact .group rfl derivation rfl

variable {inner : Node}

/-- A binary operator is a mark of some level, which takes unary operations as operands. -/
theorem Derives.operation (known : operator ∈ binaryOperators) (left : Derives .unary false leftSpan first)
    (right : Derives .unary false rightSpan second) :
    ∃ kind, Spelled kind operator.toList ∧ Derives .expression false
      (leftSpan ++ ⟨kind, operator, 1⟩ :: rightSpan) (.binary 1 operator first second) := by
  have marked : ∀ operator ∈ binaryOperators, ∃ mark ∈ marks, String.ofList mark.1 = operator ∧
      ∃ phrase ∈ [Phrase.equality, .comparison, .term, .factor], mark.2 ∈ phrase.operators := by
    decide +kernel
  have placed : ∀ phrase ∈ [Phrase.equality, .comparison, .term, .factor],
      phrase.standsFor 8 .expression ∧ Phrase.standsFor .unary 8 phrase ∧
        ∃ operand ∈ phrase.alternatives, Phrase.standsFor .unary 8 operand := by
    decide
  obtain ⟨mark, listed, rfl, phrase, level, operates⟩ := marked operator known
  obtain ⟨toExpression, toPhrase, operand, within, toOperand⟩ := placed phrase level
  let token : Token := ⟨mark.2, String.ofList mark.1, 1⟩
  have derivation : Derives phrase false (leftSpan ++ token :: rightSpan)
      (.binary token.line token.lexeme first second) :=
    .binary within (left.standing 8 toPhrase) operates (right.standing 8 toOperand)
  exact ⟨mark.2, by simpa using Spelled.mark listed, derivation.standing 8 toExpression⟩

theorem binary_derives (known : operator ∈ binaryOperators) (left : Atomic leftSpan first)
    (right : Atomic rightSpan second) :
    ∃ span, Atomic span (.binary 1 operator first second) := by
  obtain ⟨kind, spelled, derivation⟩ := Derives.operation known
    ((left.2 false).standing 8 (by decide)) ((right.2 false).standing 8 (by decide))
  have operated := Written.cons spelled right.1
  rw [String.ofList_toList] at operated
  exact derivation.parenthesized (.append left.1 operated)

theorem unary_mark (known : operator ∈ unaryOperators) :
    ∃ c kind, operator = String.ofList [c] ∧ c ∈ ['-', '!'] ∧ ([c], kind) ∈ marks ∧
      kind ∈ [Kind.bang, Kind.minus] := by
  simp only [unaryOperators, List.mem_cons, List.not_mem_nil, or_false] at known
  rcases known with rfl | rfl
  · exact ⟨'-', .minus, rfl, by decide, by decide, by decide⟩
  · exact ⟨'!', .bang, rfl, by decide, by decide, by decide⟩

theorem unary_derives (known : operator ∈ unaryOperators) (operand : Atomic innerSpan inner) :
    ∃ span, Atomic span (.unary 1 operator inner) := by
  obtain ⟨c, kind, rfl, -, listed, operates⟩ := unary_mark known
  let token : Token := ⟨kind, String.ofList [c], 1⟩
  have derivation : Derives .unary false (token :: innerSpan)
      (.unary token.line token.lexeme inner) :=
    .unary operates ((operand.2 false).standing 8 (by decide))
  exact (derivation.standing 8 (by decide)).parenthesized (.cons (.mark listed) operand.1)

theorem literal_derives (source : value.isSource) : ∃ span, Atomic span (.literal 1 value) := by
  have constant : ∀ kind : Kind, kind.isFixed → kind.constant? = some value →
      ∃ span, Atomic span (.literal 1 value) := by
    intro kind isFixed found
    exact ⟨[fixed kind], .symbol isFixed .nil, fun _ => .constant found⟩
  cases value with
  | null => exact constant .nullWord rfl rfl
  | bool truth =>
    cases truth with
    | false => exact constant .falseWord rfl rfl
    | true => exact constant .trueWord rfl rfl
  | number x =>
    obtain ⟨whole, fraction, present, digits, read⟩ := Number.exists_numeral_unsigned source
    refine ⟨[⟨.number, String.ofList (numeral whole fraction), 1⟩],
      .cons (.number present digits) .nil, fun _ => .number rfl read⟩
  | _ => cases source

theorem reference_derives (isNamed : isName name) : Atomic [named name] (.reference 1 name) :=
  ⟨.name isNamed .nil, fun _ => .reference rfl⟩

theorem assignment_derives (isNamed : isName name) (value : Atomic valueSpan inner) :
    ∃ span, Atomic span (.assignment 1 name inner) := by
  have target := reference_derives isNamed
  have derivation : Derives .assignment false (_ ++ fixed .assign :: valueSpan)
      (.assignment 1 name inner) :=
    .assignment ((target.2 false).standing 8 (by decide)) rfl
      ((value.2 false).standing 8 (by decide))
  exact (derivation.standing 8 (by decide)).parenthesized
    (.append target.1 (.symbol rfl value.1))

theorem exists_following {spans : List (List Token)} (each : ∀ span ∈ spans, Written span) :
    ∃ joined, Written joined ∧ Following .comma spans joined := by
  induction spans with
  | nil => exact ⟨[], .nil, .none⟩
  | cons span spans ih =>
    obtain ⟨joined, written, rest⟩ := ih fun other member => each other (by simp [member])
    refine ⟨fixed .comma :: span ++ joined, ?_, .more rfl rest⟩
    exact .append (.symbol rfl (each span (by simp))) written

theorem exists_separated {spans : List (List Token)} (each : ∀ span ∈ spans, Written span) :
    ∃ joined, Written joined ∧ Separated .comma spans joined := by
  cases spans with
  | nil => exact ⟨[], .nil, .none⟩
  | cons span spans =>
    have others : ∀ other ∈ spans, Written other := fun other member => each other (by simp [member])
    obtain ⟨joined, written, rest⟩ := exists_following others
    exact ⟨span ++ joined, .append (each span (by simp)) written, .some rest⟩

/-- Spans for all the trees of a list. -/
theorem exists_parts (Holds : List Token → Node → Prop) {nodes : List Node}
    (each : ∀ node ∈ nodes, ∃ span, Holds span (relined 1 node)) :
    ∃ parts : List (List Token × Node), (∀ part ∈ parts, Holds part.1 part.2) ∧
      parts.map Prod.snd = relinedAll 1 nodes := by
  induction nodes with
  | nil => exact ⟨[], by simp, rfl⟩
  | cons node nodes ih =>
    obtain ⟨span, holds⟩ := each node (by simp)
    obtain ⟨parts, others, same⟩ := ih fun other member => each other (by simp [member])
    refine ⟨(span, relined 1 node) :: parts, by simpa [holds] using others, ?_⟩
    rw [List.map_cons, same, relinedAll]

theorem call_derives (callee : Atomic calleeSpan function)
    (each : ∀ argument ∈ arguments, ∃ span, Atomic span (relined 1 argument)) :
    ∃ span, Atomic span (.call 1 function (relinedAll 1 arguments)) := by
  obtain ⟨parts, atomic, same⟩ := exists_parts Atomic each
  have written : ∀ span ∈ parts.map Prod.fst, Written span := by
    intro span member
    obtain ⟨part, listed, rfl⟩ := List.mem_map.mp member
    exact (atomic part listed).1
  obtain ⟨inner, innerWritten, joined⟩ := exists_separated written
  rw [← same]
  have derivation : Derives .call false (calleeSpan ++ fixed .leftParen :: inner ++ [fixed .rightParen])
      (.call 1 function (parts.map Prod.snd)) :=
    .call ((callee.2 false).standing 8 (by decide)) rfl parts
      (fun part listed => (atomic part listed).expression) joined rfl
  refine (derivation.standing 8 (by decide)).parenthesized ?_
  have opening : Written (fixed .leftParen :: inner) :=
    .symbol rfl innerWritten
  exact .append (.append callee.1 opening) (.symbol rfl .nil)

/-- Spans for all the arms of a match. -/
theorem exists_arms {arms : List (Int × Node × Node)}
    (patterns : ∀ arm ∈ arms, ∃ span, Atomic span (relined 1 arm.2.1))
    (bodies : ∀ arm ∈ arms, ∃ span, Atomic span (relined 1 arm.2.2)) :
    ∃ parts : List Arm, (∀ arm ∈ parts, Written arm.span) ∧
      (∀ arm ∈ parts, Derives .expression false arm.pattern arm.patternNode) ∧
      (∀ arm ∈ parts, Derives .expression false arm.body arm.bodyNode) ∧
      parts.map Arm.node = relinedAll 1 (arms.map fun arm => .matchArm arm.1 arm.2.1 arm.2.2) := by
  induction arms with
  | nil => exact ⟨[], by simp, by simp, by simp, rfl⟩
  | cons arm arms ih =>
    obtain ⟨patternSpan, pattern⟩ := patterns arm (by simp)
    obtain ⟨bodySpan, body⟩ := bodies arm (by simp)
    obtain ⟨parts, written, ofPatterns, ofBodies, same⟩ :=
      ih (fun other member => patterns other (by simp [member]))
        (fun other member => bodies other (by simp [member]))
    let part : Arm := ⟨fixed .caseWord, rfl, patternSpan, relined 1 arm.2.1, fixed .arrow, rfl,
      bodySpan, relined 1 arm.2.2⟩
    have partWritten : Written part.span :=
      .append (.symbol rfl pattern.1) (.symbol rfl body.1)
    refine ⟨part :: parts, by simpa [partWritten] using written,
      by simpa [part, pattern.expression] using ofPatterns,
      by simpa [part, body.expression] using ofBodies, ?_⟩
    rw [List.map_cons, List.map_cons, relinedAll, same]
    rfl

theorem matching_derives {arms : List (Int × Node × Node)} (subject : Atomic subjectSpan inner)
    (patterns : ∀ arm ∈ arms, ∃ span, Atomic span (relined 1 arm.2.1))
    (bodies : ∀ arm ∈ arms, ∃ span, Atomic span (relined 1 arm.2.2)) :
    ∃ span, Atomic span (.matching 1 inner
      (relinedAll 1 (arms.map fun arm => .matchArm arm.1 arm.2.1 arm.2.2))) := by
  obtain ⟨parts, written, ofPatterns, ofBodies, same⟩ := exists_arms patterns bodies
  have eachWritten : ∀ span ∈ parts.map Arm.span, Written span := by simpa using written
  obtain ⟨joinedSpan, joinedWritten, joined⟩ := exists_separated eachWritten
  rw [← same]
  let span := fixed .matchWord :: subjectSpan ++ fixed .leftBrace :: joinedSpan ++ [] ++
    [fixed .rightBrace]
  refine ⟨span, ?_, fun beforeElse => ?_⟩
  · have opening : Written (fixed .matchWord :: subjectSpan) :=
      .symbol rfl subject.1
    have inside : Written (fixed .leftBrace :: joinedSpan) :=
      .symbol rfl joinedWritten
    exact .append (.append (.append opening inside) .nil) (.symbol rfl .nil)
  · have derivation : Derives .matching beforeElse span
        (.matching (fixed .matchWord).line inner (parts.map Arm.node)) :=
      .matching rfl subject.expression rfl parts ofPatterns ofBodies joined (.inl rfl) rfl
    exact .alternative (by decide) derivation

/-- A tree that can be written down, on the first line, in a place of its role. -/
def Writable : Role → Node → Prop
  | .expression, node => ∃ span, Atomic span (relined 1 node)
  | .statement, node => ∃ span, Written span ∧
    ∀ beforeElse, (beforeElse = true → node.endsOpen = false) →
      Derives .statement beforeElse span (relined 1 node)
  | .declaration, node => ∃ span, Written span ∧ Derives .declaration false span (relined 1 node)

/-- A statement that is no `if` and no loop stands before anything. -/
theorem Writable.of_closed {phrase : Phrase} (stands : phrase.standsFor 1 .statement)
    (written : Written span)
    (derivation : ∀ beforeElse, Derives phrase beforeElse span (relined 1 node)) :
    Writable .statement node :=
  ⟨span, written, fun beforeElse _ => (derivation beforeElse).standing 1 stands⟩

theorem block_derives (each : ∀ statement ∈ statements, Writable .declaration statement) :
    ∃ span, Written span ∧
      ∀ beforeElse, Derives .block beforeElse span (.block 1 (relinedAll 1 statements)) := by
  obtain ⟨parts, derived, same⟩ := exists_parts
    (fun span node => Written span ∧ Derives .declaration false span node) each
  rw [← same]
  refine ⟨fixed .leftBrace :: (parts.map Prod.fst).flatten ++ [fixed .rightBrace], ?_, ?_⟩
  · have written : ∀ span ∈ parts.map Prod.fst, Written span := by
      intro span member
      obtain ⟨part, listed, rfl⟩ := List.mem_map.mp member
      exact (derived part listed).1
    exact .append (.symbol rfl (.flatten written)) (.symbol rfl .nil)
  · intro beforeElse
    exact .block rfl parts (fun part listed => (derived part listed).2) rfl

theorem ifElse_writable (condition : Writable .expression test) (branch : Writable .statement body)
    (closed : body.endsOpen = false) (otherwise : Writable .statement other) :
    Writable .statement (.ifStmt line test body other) := by
  obtain ⟨testSpan, test⟩ := condition
  obtain ⟨span, written, derivation⟩ := branch
  obtain ⟨otherSpan, otherWritten, otherDerivation⟩ := otherwise
  refine ⟨fixed .ifWord :: fixed .leftParen :: testSpan ++ fixed .rightParen :: span ++
    fixed .elseWord :: otherSpan, ?_, fun beforeElse ends => ?_⟩
  · exact .append (.append (.symbol rfl (.symbol rfl test.1)) (.symbol rfl written)) (.symbol rfl otherWritten)
  · have otherEnds : beforeElse = true → other.endsOpen = false := by
      intro before
      have whole := ends before
      rw [endsOpen, Bool.or_eq_false_iff] at whole
      exact whole.2
    exact .alternative (by decide) (.ifElse rfl rfl test.expression rfl
      (derivation true fun _ => closed) rfl (otherDerivation beforeElse otherEnds))

theorem ifOnly_writable (condition : Writable .expression test) (branch : Writable .statement body) :
    Writable .statement (.ifStmt line test body .absent) := by
  obtain ⟨testSpan, test⟩ := condition
  obtain ⟨span, written, derivation⟩ := branch
  refine ⟨fixed .ifWord :: fixed .leftParen :: testSpan ++ fixed .rightParen :: span, ?_, ?_⟩
  · exact .append (.symbol rfl (.symbol rfl test.1)) (.symbol rfl written)
  · intro beforeElse ends
    cases beforeElse with
    | true => cases ends rfl
    | false =>
      exact .alternative (by decide) (.ifOnly rfl rfl test.expression rfl
        (derivation false fun before => by cases before))

theorem while_writable (condition : Writable .expression test) (branch : Writable .statement body) :
    Writable .statement (.whileStmt line test body) := by
  obtain ⟨testSpan, test⟩ := condition
  obtain ⟨span, written, derivation⟩ := branch
  refine ⟨fixed .whileWord :: fixed .leftParen :: testSpan ++ fixed .rightParen :: span, ?_, ?_⟩
  · exact .append (.symbol rfl (.symbol rfl test.1)) (.symbol rfl written)
  · intro beforeElse ends
    exact .alternative (by decide)
      (.whileLoop rfl rfl test.expression rfl (derivation beforeElse ends))

theorem exprStmt_writable (expression : Writable .expression inner) :
    Writable .statement (.exprStmt line inner) := by
  obtain ⟨span, atomic⟩ := expression
  obtain ⟨first, rest, rfl⟩ := List.exists_cons_of_ne_nil atomic.expression.span_ne_nil
  have sameLine : first.line = 1 := (atomic.1 first (by simp)).2
  have written : Written (first :: rest ++ [fixed .semicolon]) := .append atomic.1 (.symbol rfl .nil)
  have derivation : ∀ beforeElse, Derives .expressionStatement beforeElse
      (first :: rest ++ [fixed .semicolon]) (.exprStmt first.line (relined 1 inner)) :=
    fun _ => .expressionStatement atomic.expression rfl
  rw [sameLine] at derivation
  exact .of_closed rfl written derivation

theorem function_writable (isNamed : isName name) (params : ∀ param ∈ names, isName param)
    (body : ∀ statement ∈ statements, Writable .declaration statement) :
    Writable .declaration (.fnDecl line name names (.block start statements)) := by
  obtain ⟨span, written, derivation⟩ := block_derives body
  have eachWritten : ∀ param ∈ (names.map named).map fun param => [param], Written param := by
    intro span member
    obtain ⟨_, inside, rfl⟩ := List.mem_map.mp member
    obtain ⟨param, listed, rfl⟩ := List.mem_map.mp inside
    exact .name (params param listed) .nil
  obtain ⟨inner, innerWritten, joined⟩ := exists_separated eachWritten
  have isParam : ∀ param ∈ names.map named, param.kind = .identifier := by
    intro param member
    obtain ⟨_, _, rfl⟩ := List.mem_map.mp member
    rfl
  have lexemes : (names.map named).map Token.lexeme = names := by
    rw [List.map_map]
    exact List.map_id names
  let whole := fixed .fnWord :: named name :: fixed .leftParen :: inner ++ fixed .rightParen :: span
  refine ⟨whole, ?_, ?_⟩
  · exact .append (.symbol rfl (.name isNamed (.symbol rfl innerWritten))) (.symbol rfl written)
  · have function : Derives .functionDeclaration false whole
        (.fnDecl (fixed .fnWord).line (named name).lexeme ((names.map named).map Token.lexeme) _) :=
      .function rfl rfl rfl (names.map named) isParam joined rfl (derivation false)
    rw [lexemes] at function
    exact .alternative (by decide) function

theorem variable_writable (isNamed : isName name) (initializer : Writable .expression inner) :
    Writable .declaration (.varDecl line name inner) := by
  obtain ⟨span, atomic⟩ := initializer
  refine ⟨fixed .varWord :: named name :: fixed .assign :: span ++ [fixed .semicolon], ?_, ?_⟩
  · exact .append (.symbol rfl (.name isNamed (.symbol rfl atomic.1))) (.symbol rfl .nil)
  · exact .alternative (by decide) (.initialized rfl rfl rfl atomic.expression rfl)

theorem bareVariable_writable (isNamed : isName name) :
    Writable .declaration (.varDecl line name .absent) := by
  refine ⟨[fixed .varWord, named name, fixed .semicolon], ?_, ?_⟩
  · exact .symbol rfl (.name isNamed (.symbol rfl .nil))
  · exact .alternative (by decide) (.uninitialized rfl rfl rfl)

end Grammar

/-- Every well-formed tree can be written down. -/
theorem Node.WellFormed.writable (wellFormed : WellFormed role node) :
    Grammar.Writable role node := by
  induction wellFormed with
  | literal source => exact Grammar.literal_derives source
  | binary known _ _ left right =>
    obtain ⟨_, left⟩ := left
    obtain ⟨_, right⟩ := right
    exact Grammar.binary_derives known left right
  | unary known _ operand =>
    obtain ⟨_, operand⟩ := operand
    exact Grammar.unary_derives known operand
  | reference named => exact ⟨_, Grammar.reference_derives named⟩
  | assignment named _ value =>
    obtain ⟨_, value⟩ := value
    exact Grammar.assignment_derives named value
  | call _ _ callee each =>
    obtain ⟨_, callee⟩ := callee
    exact Grammar.call_derives callee each
  | matching arms _ _ _ subject patterns bodies =>
    obtain ⟨_, subject⟩ := subject
    exact Grammar.matching_derives subject patterns bodies
  | exprStmt _ expression => exact Grammar.exprStmt_writable expression
  | printStmt _ expression =>
    obtain ⟨span, expression⟩ := expression
    exact .of_closed rfl (.append (.symbol rfl expression.1) (.symbol rfl .nil))
      fun _ => .print rfl expression.expression rfl
  | ifOnly _ _ condition branch => exact Grammar.ifOnly_writable condition branch
  | ifElse _ _ closed _ condition branch otherwise =>
    exact Grammar.ifElse_writable condition branch closed otherwise
  | whileStmt _ _ condition branch => exact Grammar.while_writable condition branch
  | block _ each =>
    obtain ⟨span, written, derivation⟩ := Grammar.block_derives each
    exact .of_closed rfl written derivation
  | bareReturn =>
    exact .of_closed rfl (.symbol rfl (.symbol rfl .nil)) fun _ => .bareReturn rfl rfl
  | returnStmt _ value =>
    obtain ⟨span, value⟩ := value
    exact .of_closed rfl (.append (.symbol rfl value.1) (.symbol rfl .nil))
      fun _ => .returnValue rfl value.expression rfl
  | statement _ inner =>
    obtain ⟨span, written, derivation⟩ := inner
    exact ⟨span, written, .alternative (by decide) (derivation false fun before => by cases before)⟩
  | bareVar named => exact Grammar.bareVariable_writable named
  | varDecl named _ initializer => exact Grammar.variable_writable named initializer
  | fnDecl named params _ body => exact Grammar.function_writable named params body

end Scriptlet
