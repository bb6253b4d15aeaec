import Scriptlet.Parsing.Phrase

/-! The grammar of programs, as a relation between lists of tokens and the trees they stand for. The
rules speak about whole spans of tokens and not about the order in which they are looked at: binary
operators recur on the left, unary operators and assignments on the right, and a span that stands
before an `else` is no `if` that lacks one, since the nearest `if` takes it. -/
namespace Scriptlet

namespace Phrase

/-- The phrases that a phrase may consist of and nothing else. -/
def alternatives : Phrase → List Phrase
  | .declaration => [.variableDeclaration, .functionDeclaration, .statement]
  | .statement =>
    [.printStatement, .ifStatement, .whileStatement, .forStatement, .block, .returnStatement,
     .expressionStatement]
  | .expression => [.assignment]
  | .assignment => [.equality]
  | .equality => [.comparison]
  | .comparison => [.term]
  | .term => [.factor]
  | .factor => [.unary]
  | .unary => [.call]
  | .call => [.primary]
  | .primary => [.matching]
  | _ => []

/-- The binary operators of a level. Their right operands are of the next level. -/
def operators : Phrase → List Kind
  | .equality => [.equal, .notEqual]
  | .comparison => [.greater, .greaterEqual, .less, .lessEqual]
  | .term => [.plus, .minus]
  | .factor => [.star, .slash]
  | _ => []

end Phrase

/-- The value of a keyword that is a literal. -/
def Kind.constant? : Kind → Option Scalar
  | .trueWord => some (.bool true)
  | .falseWord => some (.bool false)
  | .nullWord => some .null
  | _ => none

namespace Grammar

/-- Spans with a separating token before each of them. -/
inductive Following (separator : Kind) : List (List Token) → List Token → Prop where
  | none : Following separator [] []
  | more {mark : Token} (separates : mark.kind = separator)
      (rest : Following separator spans tail) :
      Following separator (span :: spans) (mark :: span ++ tail)

/-- Spans with a separating token between each two of them. -/
inductive Separated (separator : Kind) : List (List Token) → List Token → Prop where
  | none : Separated separator [] []
  | some (rest : Following separator spans tail) : Separated separator (span :: spans) (span ++ tail)

/-- The parts of one arm of a match. -/
structure Arm where
  keyword : Token
  isCase : keyword.kind = .caseWord
  pattern : List Token
  patternNode : Node
  arrow : Token
  isArrow : arrow.kind = .arrow
  body : List Token
  bodyNode : Node

def Arm.span (arm : Arm) : List Token :=
  arm.keyword :: arm.pattern ++ arm.arrow :: arm.body

def Arm.node (arm : Arm) : Node :=
  .matchArm arm.keyword.line arm.patternNode arm.bodyNode

/-- `Derives phrase beforeElse span node`: the tokens of `span` make up a phrase, and `node` is the
tree it stands for. `beforeElse` says whether an `else` comes next. -/
inductive Derives : Phrase → Bool → List Token → Node → Prop where
  | alternative {inner : Phrase} (listed : inner ∈ Phrase.alternatives phrase)
      (derivation : Derives inner beforeElse span node) : Derives phrase beforeElse span node
  | uninitialized {keyword name semicolon : Token} (isVar : keyword.kind = .varWord)
      (isName : name.kind = .identifier) (ends : semicolon.kind = .semicolon) :
      Derives .variableDeclaration beforeElse [keyword, name, semicolon]
        (.varDecl keyword.line name.lexeme .absent)
  | initialized {keyword name equals semicolon : Token} (isVar : keyword.kind = .varWord)
      (isName : name.kind = .identifier) (isAssign : equals.kind = .assign)
      (initializer : Derives .expression false span node) (ends : semicolon.kind = .semicolon) :
      Derives .variableDeclaration beforeElse (keyword :: name :: equals :: span ++ [semicolon])
        (.varDecl keyword.line name.lexeme node)
  | function {keyword name opener closer : Token} {inner : List Token} (isFn : keyword.kind = .fnWord)
      (isName : name.kind = .identifier) (opens : opener.kind = .leftParen)
      (params : List Token) (isParam : ∀ param ∈ params, param.kind = .identifier)
      (joined : Separated .comma (params.map fun param => [param]) inner)
      (closes : closer.kind = .rightParen) (body : Derives .block beforeElse span node) :
      Derives .functionDeclaration beforeElse (keyword :: name :: opener :: inner ++ closer :: span)
        (.fnDecl keyword.line name.lexeme (params.map Token.lexeme) node)
  | print {keyword semicolon : Token} (isPrint : keyword.kind = .printWord)
      (expression : Derives .expression false span node) (ends : semicolon.kind = .semicolon) :
      Derives .printStatement beforeElse (keyword :: span ++ [semicolon])
        (.printStmt keyword.line node)
  | ifOnly {keyword opener closer : Token} (isIf : keyword.kind = .ifWord)
      (opens : opener.kind = .leftParen) (condition : Derives .expression false test testNode)
      (closes : closer.kind = .rightParen) (branch : Derives .statement false span node) :
      Derives .ifStatement false (keyword :: opener :: test ++ closer :: span)
        (.ifStmt keyword.line testNode node .absent)
  | ifElse {keyword opener closer divider : Token} (isIf : keyword.kind = .ifWord)
      (opens : opener.kind = .leftParen) (condition : Derives .expression false test testNode)
      (closes : closer.kind = .rightParen) (branch : Derives .statement true span node)
      (isElse : divider.kind = .elseWord)
      (otherwise : Derives .statement beforeElse otherSpan otherNode) :
      Derives .ifStatement beforeElse
        (keyword :: opener :: test ++ closer :: span ++ divider :: otherSpan)
        (.ifStmt keyword.line testNode node otherNode)
  | whileLoop {keyword opener closer : Token} (isWhile : keyword.kind = .whileWord)
      (opens : opener.kind = .leftParen) (condition : Derives .expression false test testNode)
      (closes : closer.kind = .rightParen) (body : Derives .statement beforeElse span node) :
      Derives .whileStatement beforeElse (keyword :: opener :: test ++ closer :: span)
        (.whileStmt keyword.line testNode node)
  /-- Each clause may be missing, in which case its span is empty. -/
  | forLoop {keyword opener firstEnd secondEnd closer : Token} (isFor : keyword.kind = .forWord)
      (opens : opener.kind = .leftParen)
      (starts : clause ∈ [Phrase.variableDeclaration, Phrase.expressionStatement])
      (initializer : first ≠ [] → Derives clause false (first ++ [firstEnd]) initializerNode)
      (endsFirst : firstEnd.kind = .semicolon)
      (condition : second ≠ [] → Derives .expression false second conditionNode)
      (endsSecond : secondEnd.kind = .semicolon)
      (increment : third ≠ [] → Derives .expression false third incrementNode)
      (closes : closer.kind = .rightParen) (body : Derives .statement beforeElse span node) :
      Derives .forStatement beforeElse
        (keyword :: opener :: first ++ firstEnd :: second ++ secondEnd :: third ++ closer :: span)
        (.block keyword.line
          ((if first = [] then [] else [initializerNode]) ++
            [.whileStmt keyword.line
              (if second = [] then .literal keyword.line (.bool true) else conditionNode)
              (.block keyword.line
                (node :: if third = [] then [] else [.exprStmt keyword.line incrementNode]))]))
  | bareReturn {keyword semicolon : Token} (isReturn : keyword.kind = .returnWord)
      (ends : semicolon.kind = .semicolon) :
      Derives .returnStatement beforeElse [keyword, semicolon] (.returnStmt keyword.line .absent)
  | returnValue {keyword semicolon : Token} (isReturn : keyword.kind = .returnWord)
      (value : Derives .expression false span node) (ends : semicolon.kind = .semicolon) :
      Derives .returnStatement beforeElse (keyword :: span ++ [semicolon])
        (.returnStmt keyword.line node)
  | block {opener closer : Token} (opens : opener.kind = .leftBrace)
      (parts : List (List Token × Node))
      (each : ∀ part ∈ parts, Derives .declaration false part.1 part.2)
      (closes : closer.kind = .rightBrace) :
      Derives .block beforeElse (opener :: (parts.map Prod.fst).flatten ++ [closer])
        (.block opener.line (parts.map Prod.snd))
  | expressionStatement {first semicolon : Token}
      (expression : Derives .expression false (first :: span) node)
      (ends : semicolon.kind = .semicolon) :
      Derives .expressionStatement beforeElse (first :: span ++ [semicolon])
        (.exprStmt first.line node)
  | assignment {equals : Token} (target : Derives .equality false targetSpan (.reference line name))
      (isAssign : equals.kind = .assign) (value : Derives .assignment beforeElse span node) :
      Derives .assignment beforeElse (targetSpan ++ equals :: span) (.assignment line name node)
  | binary {operator : Token} (level : operand ∈ Phrase.alternatives phrase)
      (left : Derives phrase false leftSpan leftNode) (listed : operator.kind ∈ phrase.operators)
      (right : Derives operand beforeElse span node) :
      Derives phrase beforeElse (leftSpan ++ operator :: span)
        (.binary operator.line operator.lexeme leftNode node)
  | unary {operator : Token} (listed : operator.kind ∈ [Kind.bang, Kind.minus])
      (operand : Derives .unary beforeElse span node) :
      Derives .unary beforeElse (operator :: span) (.unary operator.line operator.lexeme node)
  | call {opener closer : Token} {inner : List Token} (callee : Derives .call false calleeSpan calleeNode)
      (opens : opener.kind = .leftParen) (parts : List (List Token × Node))
      (each : ∀ part ∈ parts, Derives .expression false part.1 part.2)
      (joined : Separated .comma (parts.map Prod.fst) inner) (closes : closer.kind = .rightParen) :
      Derives .call beforeElse (calleeSpan ++ opener :: inner ++ [closer])
        (.call opener.line calleeNode (parts.map Prod.snd))
  | number {token : Token} (isNumber : token.kind = .number)
      (value : Number.read? token.lexeme = some number) :
      Derives .primary beforeElse [token] (.literal token.line (.number number))
  | constant {token : Token} (value : token.kind.constant? = some scalar) :
      Derives .primary beforeElse [token] (.literal token.line scalar)
  | reference {token : Token} (isName : token.kind = .identifier) :
      Derives .primary beforeElse [token] (.reference token.line token.lexeme)
  | group {opener closer : Token} (opens : opener.kind = .leftParen)
      (expression : Derives .expression false span node) (closes : closer.kind = .rightParen) :
      Derives .primary beforeElse (opener :: span ++ [closer]) node
  | matching {keyword opener closer : Token} {inner : List Token} (isMatch : keyword.kind = .matchWord)
      (subject : Derives .expression false subjectSpan subjectNode)
      (opens : opener.kind = .leftBrace) (arms : List Arm)
      (patterns : ∀ arm ∈ arms, Derives .expression false arm.pattern arm.patternNode)
      (bodies : ∀ arm ∈ arms, Derives .expression false arm.body arm.bodyNode)
      (joined : Separated .comma (arms.map Arm.span) inner)
      (trailing : extra = [] ∨ arms ≠ [] ∧ ∃ comma : Token, comma.kind = .comma ∧ extra = [comma])
      (closes : closer.kind = .rightBrace) :
      Derives .matching beforeElse (keyword :: subjectSpan ++ opener :: inner ++ extra ++ [closer])
        (.matching keyword.line subjectNode (arms.map Arm.node))

/-- A program: declarations, and then the end of the input. -/
def Program (tokens : List Token) (program : List Node) : Prop :=
  ∃ (parts : List (List Token × Node)) (last : Token),
    (∀ part ∈ parts, Derives .declaration false part.1 part.2) ∧ last.kind = .endOfInput ∧
      tokens = (parts.map Prod.fst).flatten ++ [last] ∧ program = parts.map Prod.snd

/-- What may stand before an `else` may stand anywhere. -/
theorem Derives.anywhere (derivation : Derives phrase beforeElse span node) :
    Derives phrase false span node := by
  induction derivation with
  | alternative listed _ ih => exact .alternative listed ih
  | uninitialized isVar isName ends => exact .uninitialized isVar isName ends
  | initialized isVar isName isAssign initializer ends _ =>
    exact .initialized isVar isName isAssign initializer ends
  | function isFn isName opens params isParam joined closes _ ih =>
    exact .function isFn isName opens params isParam joined closes ih
  | print isPrint expression ends _ => exact .print isPrint expression ends
  | ifOnly isIf opens condition closes branch => exact .ifOnly isIf opens condition closes branch
  | ifElse isIf opens condition closes branch isElse _ _ _ ih =>
    exact .ifElse isIf opens condition closes branch isElse ih
  | whileLoop isWhile opens condition closes _ _ ih =>
    exact .whileLoop isWhile opens condition closes ih
  | forLoop isFor opens starts initializer endsFirst condition endsSecond increment closes _ _ _ _ ih =>
    exact .forLoop isFor opens starts initializer endsFirst condition endsSecond increment closes ih
  | bareReturn isReturn ends => exact .bareReturn isReturn ends
  | returnValue isReturn value ends _ => exact .returnValue isReturn value ends
  | block opens parts each closes _ => exact .block opens parts each closes
  | expressionStatement expression ends _ => exact .expressionStatement expression ends
  | assignment target isAssign _ _ ih => exact .assignment target isAssign ih
  | binary level left listed _ _ ih => exact .binary level left listed ih
  | unary listed _ ih => exact .unary listed ih
  | call callee opens parts each joined closes _ _ =>
    exact .call callee opens parts each joined closes
  | number isNumber value => exact .number isNumber value
  | constant value => exact .constant value
  | reference isName => exact .reference isName
  | group opens expression closes _ => exact .group opens expression closes
  | matching isMatch subject opens arms patterns bodies joined trailing closes _ _ _ =>
    exact .matching isMatch subject opens arms patterns bodies joined trailing closes

/-- No phrase stands for an absent part. -/
theorem Derives.present (derivation : Derives phrase beforeElse span node) :
    node.isAbsent = false := by
  induction derivation with
  | alternative _ _ ih => exact ih
  | group _ _ _ ih => exact ih
  | _ => rfl

theorem Derives.span_ne_nil (derivation : Derives phrase beforeElse span node) : span ≠ [] := by
  induction derivation with
  | alternative _ _ ih => exact ih
  | _ => simp

/-- The two phrases that a loop may start with are no choices between other phrases. -/
theorem alternatives_of_starts (starts : phrase ∈ [Phrase.variableDeclaration, .expressionStatement]) :
    phrase.alternatives = [] := by
  simp only [List.mem_cons, List.not_mem_nil, or_false] at starts
  rcases starts with rfl | rfl <;> rfl

/-- They end with a semicolon of their own. -/
theorem Derives.semicolon_last (starts : phrase ∈ [Phrase.variableDeclaration, .expressionStatement])
    (derivation : Derives phrase beforeElse span node) :
    ∃ first semicolon, first ≠ [] ∧ semicolon.kind = .semicolon ∧ span = first ++ [semicolon] := by
  have alone := alternatives_of_starts starts
  cases derivation with
  | uninitialized _ _ ends => exact ⟨[_, _], _, by simp, ends, rfl⟩
  | initialized _ _ _ _ ends => exact ⟨_ :: _ :: _ :: _, _, by simp, ends, rfl⟩
  | expressionStatement _ ends => exact ⟨_ :: _, _, by simp, ends, rfl⟩
  | alternative listed => simp [alone] at listed
  | binary level => simp [alone] at level
  | _ => simp at starts

end Grammar

end Scriptlet
