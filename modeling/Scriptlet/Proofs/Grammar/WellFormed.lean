import Scriptlet.Proofs.Grammar.Rules
import Scriptlet.Proofs.Node.WellFormed
import Scriptlet.Proofs.Number.Reading

/-! Whatever the grammar derives from the tokens of a source is well formed. -/
namespace Scriptlet

open Node

namespace Lexeme

theorem Spelled.of_name {text : List Char} (spelled : Spelled .identifier text) :
    isName (String.ofList text) := by
  generalize same : Kind.identifier = kind at spelled
  cases spelled with
  | mark listed =>
    have different : ∀ mark ∈ marks, Kind.identifier ≠ mark.2 := by decide
    exact absurd same (different _ listed)
  | number => cases same
  | word letter each =>
    rw [isName, String.toList_ofList]
    simp only [letter, Bool.true_and, Bool.and_eq_true, List.all_eq_true, decide_eq_true_eq]
    exact ⟨each, same.symm⟩

theorem isName.spelled {name : String} (named : isName name) :
    Spelled .identifier name.toList := by
  unfold isName at named
  split at named
  · cases named
  · rename_i first rest shape
    simp only [Bool.and_eq_true, List.all_eq_true, decide_eq_true_eq] at named
    obtain ⟨⟨letter, each⟩, isWord⟩ := named
    have spelled := Spelled.word letter each
    rwa [← shape, String.ofList_toList, isWord] at spelled

end Lexeme

namespace Phrase

/-- The place that a phrase stands in. -/
def role : Phrase → Role
  | .declaration | .variableDeclaration | .functionDeclaration => .declaration
  | .statement | .printStatement | .ifStatement | .whileStatement | .forStatement
  | .returnStatement | .block | .expressionStatement => .statement
  | _ => .expression

theorem roles (phrase : Phrase) : ∀ inner ∈ alternatives phrase,
    role inner = role phrase ∨ role inner = .statement ∧ role phrase = .declaration := by
  cases phrase <;> decide

theorem role_alternative {inner : Phrase} (listed : inner ∈ alternatives phrase)
    (wellFormed : WellFormed (role inner) node) : WellFormed (role phrase) node := by
  rcases roles phrase inner listed with same | ⟨isStatement, isDeclaration⟩
  · rwa [same] at wellFormed
  · rw [isStatement] at wellFormed
    rw [isDeclaration]
    exact .statement wellFormed

/-- A loop starts with what may be declared. -/
theorem clause_declaration (starts : clause ∈ [Phrase.variableDeclaration, .expressionStatement])
    (wellFormed : WellFormed (role clause) node) : WellFormed .declaration node := by
  simp only [List.mem_cons, List.not_mem_nil, or_false] at starts
  rcases starts with rfl | rfl
  · exact wellFormed
  · exact .statement wellFormed

/-- The levels of binary operators are levels of expressions. -/
theorem roles_of_operator (level : operand ∈ alternatives phrase) (listed : kind ∈ operators phrase) :
    role phrase = .expression ∧ role operand = .expression := by
  have operatorsOnly : operators phrase ≠ [] → role phrase = .expression := by
    cases phrase <;> decide
  have outer := operatorsOnly (List.ne_nil_of_mem listed)
  rcases roles phrase operand level with same | ⟨-, other⟩
  · exact ⟨outer, same.trans outer⟩
  · rw [outer] at other
    cases other

end Phrase

namespace Grammar

open Lexeme

/-- Every token is spelled as its kind demands. -/
def Spell (tokens : List Token) : Prop :=
  ∀ token ∈ tokens, Spelled token.kind token.lexeme.toList

@[simp]
theorem spell_nil : Spell [] := by
  intro token member
  cases member

@[simp]
theorem spell_cons {token : Token} {tokens : List Token} :
    Spell (token :: tokens) ↔ Spelled token.kind token.lexeme.toList ∧ Spell tokens :=
  List.forall_mem_cons

@[simp]
theorem spell_append {first second : List Token} :
    Spell (first ++ second) ↔ Spell first ∧ Spell second :=
  List.forall_mem_append

theorem Spell.part {whole part : List Token} (spelled : Spell whole)
    (inside : ∀ token ∈ part, token ∈ whole) : Spell part :=
  fun token member => spelled token (inside token member)

theorem Following.mem (joined : Following separator spans tail) (listed : span ∈ spans)
    (member : token ∈ span) : token ∈ tail := by
  induction joined with
  | none => cases listed
  | more _ _ ih =>
    rcases List.mem_cons.mp listed with rfl | listed
    · simp [member]
    · simp [ih listed]

theorem Separated.mem (joined : Separated separator spans tail) (listed : span ∈ spans)
    (member : token ∈ span) : token ∈ tail := by
  cases joined with
  | none => cases listed
  | some rest =>
    rcases List.mem_cons.mp listed with rfl | listed
    · simp [member]
    · simp [rest.mem listed member]

theorem Derives.block_node (derivation : Derives .block beforeElse span node) :
    ∃ line statements, node = .block line statements := by
  cases derivation with
  | block => exact ⟨_, _, rfl⟩
  | alternative listed => simp [Phrase.alternatives] at listed
  | binary level => simp [Phrase.alternatives] at level

theorem name_spelled {token : Token} (spelled : Spelled token.kind token.lexeme.toList)
    (isName : token.kind = .identifier) : Lexeme.isName token.lexeme := by
  rw [isName] at spelled
  simpa using spelled.of_name

/-- An operator is written as one of the marks of its level. -/
theorem operator_known {phrase : Phrase} {token : Token}
    (spelled : Spelled token.kind token.lexeme.toList) (listed : token.kind ∈ phrase.operators) :
    token.lexeme ∈ binaryOperators := by
  have marked : ∀ kind ∈ phrase.operators, kind ≠ .number ∧ kind ≠ .identifier ∧
      (∀ keyword ∈ Kind.keywords, keyword.2 ≠ kind) ∧
      ∀ mark ∈ marks, mark.2 = kind → String.ofList mark.1 ∈ binaryOperators := by
    cases phrase <;> decide
  obtain ⟨notNumber, notName, notKeyword, known⟩ := marked _ listed
  have written := known _ (spelled.of_mark notNumber notName notKeyword) rfl
  simpa using written

theorem unary_known {token : Token} (spelled : Spelled token.kind token.lexeme.toList)
    (listed : token.kind ∈ [Kind.bang, Kind.minus]) : token.lexeme ∈ unaryOperators := by
  have marked : ∀ kind ∈ [Kind.bang, Kind.minus], kind ≠ .number ∧ kind ≠ .identifier ∧
      (∀ keyword ∈ Kind.keywords, keyword.2 ≠ kind) ∧
      ∀ mark ∈ marks, mark.2 = kind → String.ofList mark.1 ∈ unaryOperators := by
    decide
  obtain ⟨notNumber, notName, notKeyword, known⟩ := marked _ listed
  have written := known _ (spelled.of_mark notNumber notName notKeyword) rfl
  simpa using written

theorem constant_isSource {kind : Kind} (value : kind.constant? = some scalar) :
    scalar.isSource := by
  unfold Kind.constant? at value
  split at value <;> cases value <;> rfl

/-- What stands for a loop is well formed if its body and the clauses that are there are. -/
theorem loop_wellFormed {first second third : List Token}
    (initializer : first ≠ [] → WellFormed .declaration initializerNode)
    (condition : second ≠ [] → WellFormed .expression conditionNode)
    (increment : third ≠ [] → WellFormed .expression incrementNode)
    (body : WellFormed .statement node) :
    WellFormed .statement (.block line ((if first = [] then [] else [initializerNode]) ++
      [.whileStmt line (if second = [] then .literal line (.bool true) else conditionNode)
        (.block line (node :: if third = [] then [] else [.exprStmt line incrementNode]))])) := by
  refine .block fun statement member => ?_
  rcases List.mem_append.mp member with inFirst | inLoop
  · split at inFirst
    · cases inFirst
    · rename_i given
      cases List.mem_singleton.mp inFirst
      exact initializer given
  · cases List.mem_singleton.mp inLoop
    refine .statement (.whileStmt ?_ (.block fun inner inBody => ?_))
    · split
      · exact .literal rfl
      · rename_i given
        exact condition given
    · rcases List.mem_cons.mp inBody with rfl | inThird
      · exact .statement body
      · split at inThird
        · cases inThird
        · rename_i given
          cases List.mem_singleton.mp inThird
          exact .statement (.exprStmt (increment given))

/-- A match is well formed if its subject and the two parts of each arm are. -/
theorem matching_wellFormed {inner : Node} {arms : List Arm} (subject : WellFormed .expression inner)
    (patterns : ∀ arm ∈ arms, WellFormed .expression arm.patternNode)
    (bodies : ∀ arm ∈ arms, WellFormed .expression arm.bodyNode) :
    WellFormed .expression (.matching line inner (arms.map Arm.node)) := by
  let parts := arms.map fun arm => (arm.keyword.line, arm.patternNode, arm.bodyNode)
  have shape : arms.map Arm.node = parts.map fun arm => .matchArm arm.1 arm.2.1 arm.2.2 := by
    simp [parts, Arm.node]
  rw [shape]
  exact .matching parts subject (List.forall_mem_map.mpr patterns) (List.forall_mem_map.mpr bodies)

theorem Spell.arm {arm : Arm} (spelled : Spell arm.span) : Spell arm.pattern ∧ Spell arm.body := by
  simp only [Arm.span, List.cons_append, spell_cons, spell_append] at spelled
  exact ⟨spelled.2.1, spelled.2.2.2⟩

/-- Whatever is derived from tokens that are spelled as they must be is well formed, and before an
`else` it does not end with an `if` that would take it. -/
theorem Derives.wellFormed {phrase : Phrase} (derivation : Derives phrase beforeElse span node)
    (spelled : Spell span) :
    WellFormed phrase.role node ∧ (beforeElse = true → node.endsOpen = false) := by
  induction derivation with
  | alternative listed _ ih =>
    obtain ⟨inner, closed⟩ := ih spelled
    exact ⟨Phrase.role_alternative listed inner, closed⟩
  | uninitialized isVar isName ends =>
    simp only [spell_cons] at spelled
    obtain ⟨-, named, -⟩ := spelled
    exact ⟨.bareVar (name_spelled named isName), fun _ => rfl⟩
  | initialized isVar isName isAssign _ ends ih =>
    simp only [List.cons_append, spell_cons, spell_append] at spelled
    obtain ⟨-, named, -, inner, -⟩ := spelled
    exact ⟨.varDecl (name_spelled named isName) (ih inner).1, fun _ => rfl⟩
  | function isFn isName opens params isParam joined closes derivation ih =>
    obtain ⟨line, statements, rfl⟩ := derivation.block_node
    simp only [List.cons_append, spell_cons, spell_append] at spelled
    obtain ⟨-, named, -, paramList, -, block⟩ := spelled
    have body := (ih block).1
    cases body with
    | block inside =>
    refine ⟨.fnDecl (name_spelled named isName) (fun param member => ?_) inside, fun _ => rfl⟩
    obtain ⟨token, listed, rfl⟩ := List.mem_map.mp member
    have inList := joined.mem (List.mem_map_of_mem listed) (List.mem_singleton_self token)
    exact name_spelled (paramList token inList) (isParam token listed)
  | print isPrint _ ends ih =>
    simp only [List.cons_append, spell_cons, spell_append] at spelled
    exact ⟨.printStmt (ih spelled.2.1).1, fun _ => rfl⟩
  | ifOnly isIf opens _ closes _ conditionIh branchIh =>
    simp only [List.cons_append, spell_cons, spell_append] at spelled
    obtain ⟨-, -, test, -, branch⟩ := spelled
    exact ⟨.ifOnly (conditionIh test).1 (branchIh branch).1, by simp⟩
  | ifElse isIf opens _ closes _ isElse otherwise conditionIh branchIh otherIh =>
    simp only [List.cons_append, List.append_assoc, spell_cons, spell_append] at spelled
    obtain ⟨-, -, test, -, branch, -, other⟩ := spelled
    obtain ⟨branch, closed⟩ := branchIh branch
    obtain ⟨other, ends⟩ := otherIh other
    refine ⟨.ifElse (conditionIh test).1 branch (closed rfl) other, fun before => ?_⟩
    rw [endsOpen, otherwise.present, ends before]
    rfl
  | whileLoop isWhile opens _ closes _ conditionIh bodyIh =>
    simp only [List.cons_append, spell_cons, spell_append] at spelled
    obtain ⟨-, -, test, -, body⟩ := spelled
    obtain ⟨body, closed⟩ := bodyIh body
    exact ⟨.whileStmt (conditionIh test).1 body, closed⟩
  | forLoop isFor opens starts _ endsFirst _ endsSecond _ closes _ firstIh secondIh thirdIh bodyIh =>
    simp only [List.cons_append, List.append_assoc, spell_cons, spell_append, spell_nil,
      and_true] at spelled firstIh
    obtain ⟨-, -, first, firstEnd, second, -, third, -, body⟩ := spelled
    have initializer (given) := Phrase.clause_declaration starts (firstIh given ⟨first, firstEnd⟩).1
    exact ⟨loop_wellFormed initializer (fun given => (secondIh given second).1)
      (fun given => (thirdIh given third).1) (bodyIh body).1, fun _ => rfl⟩
  | bareReturn isReturn ends => exact ⟨.bareReturn, fun _ => rfl⟩
  | returnValue isReturn value ends ih =>
    simp only [List.cons_append, spell_cons, spell_append] at spelled
    exact ⟨.returnStmt (ih spelled.2.1).1, fun _ => rfl⟩
  | block opens parts each closes ih =>
    simp only [List.cons_append, spell_cons, spell_append] at spelled
    obtain ⟨-, inside, -⟩ := spelled
    refine ⟨.block fun statement member => ?_, fun _ => rfl⟩
    obtain ⟨part, listed, rfl⟩ := List.mem_map.mp member
    refine (ih part listed (inside.part fun token member => ?_)).1
    exact List.mem_flatten.mpr ⟨part.1, List.mem_map_of_mem listed, member⟩
  | expressionStatement _ ends ih =>
    rw [spell_append] at spelled
    exact ⟨.exprStmt (ih spelled.1).1, fun _ => rfl⟩
  | assignment _ isAssign _ targetIh valueIh =>
    simp only [spell_cons, spell_append] at spelled
    obtain ⟨target, -, value⟩ := spelled
    have reference := (targetIh target).1
    cases reference with
    | reference named => exact ⟨.assignment named (valueIh value).1, fun _ => rfl⟩
  | @binary operand phrase _ _ _ _ _ _ level _ listed _ leftIh rightIh =>
    simp only [spell_cons, spell_append] at spelled
    obtain ⟨first, operator, second⟩ := spelled
    have left := (leftIh first).1
    have right := (rightIh second).1
    obtain ⟨outer, inner⟩ := Phrase.roles_of_operator level listed
    rw [outer] at left ⊢
    rw [inner] at right
    exact ⟨.binary (operator_known operator listed) left right, fun _ => rfl⟩
  | unary listed _ ih =>
    rw [spell_cons] at spelled
    exact ⟨.unary (unary_known spelled.1 listed) (ih spelled.2).1, fun _ => rfl⟩
  | call _ opens parts each joined closes calleeIh ih =>
    simp only [List.append_assoc, List.cons_append, spell_cons, spell_append] at spelled
    obtain ⟨callee, -, inside, -⟩ := spelled
    refine ⟨.call (calleeIh callee).1 fun argument member => ?_, fun _ => rfl⟩
    obtain ⟨part, listed, rfl⟩ := List.mem_map.mp member
    refine (ih part listed (inside.part fun token member => ?_)).1
    exact joined.mem (List.mem_map_of_mem listed) member
  | number isNumber value =>
    have literal := spelled _ (List.mem_singleton_self _)
    rw [isNumber] at literal
    obtain ⟨x, found, unsigned⟩ := Number.read?_spelled literal
    cases value.symm.trans found
    exact ⟨.literal unsigned, fun _ => rfl⟩
  | constant value => exact ⟨.literal (constant_isSource value), fun _ => rfl⟩
  | reference isName =>
    rw [spell_cons] at spelled
    exact ⟨.reference (name_spelled spelled.1 isName), fun _ => rfl⟩
  | group opens _ closes ih =>
    simp only [List.cons_append, spell_cons, spell_append] at spelled
    have inner := (ih spelled.2.1).1
    exact ⟨inner, fun _ => inner.not_endsOpen⟩
  | matching isMatch _ opens arms _ _ joined trailing closes subjectIh patternsIh bodiesIh =>
    simp only [List.append_assoc, List.cons_append, spell_cons, spell_append] at spelled
    obtain ⟨-, subject, -, inside, -⟩ := spelled
    have eachArm (arm) (listed : arm ∈ arms) : Spell arm.pattern ∧ Spell arm.body :=
      Spell.arm (inside.part fun token member => joined.mem (List.mem_map_of_mem listed) member)
    exact ⟨matching_wellFormed (subjectIh subject).1
      (fun arm listed => (patternsIh arm listed (eachArm arm listed).1).1)
      (fun arm listed => (bodiesIh arm listed (eachArm arm listed).2).1), fun _ => rfl⟩

end Grammar

end Scriptlet
