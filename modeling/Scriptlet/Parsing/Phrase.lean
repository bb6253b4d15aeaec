import Scriptlet.Node
import Scriptlet.Number.Read
import Scriptlet.Parsing.Stream

/-! The grammar as one procedure per phrase. A phrase that holds other phrases receives the parser
for them as an argument; the parsers of all phrases are then tied together with a limit on how deep
they nest. Lists and chains are read by loops that make at most `turns` turns, a number never below
the number of tokens that are left. -/
namespace Scriptlet

inductive Phrase where
  | declaration | variableDeclaration | functionDeclaration
  | statement | printStatement | ifStatement | whileStatement | forStatement | returnStatement
  | block | expressionStatement
  | expression | assignment | equality | comparison | term | factor | unary | call | primary
  | matching
deriving DecidableEq

namespace Phrase

open Parse

section

variable (parse : Phrase → Parse Node)

def declarationBody : Parse Node := do
  match (← current).kind with
  | .varWord => parse .variableDeclaration
  | .fnWord => parse .functionDeclaration
  | _ => parse .statement

/-- `var name (= expression)? ;` -/
def variableDeclarationBody : Parse Node := do
  let keyword ← expectKind .varWord
  let name ← expect .identifier "Expected variable name"
  let initializer ← match ← accept [.assign] with
    | some _ => parse .expression
    | none => pure .absent
  let _ ← expect .semicolon "Expected ';' after variable declaration"
  return .varDecl keyword.line name.lexeme initializer

/-- The names after the first one of a parameter list. -/
def moreParams (found : Array String) : (turns : Nat) → Parse (Array String)
  | 0 => return found
  | turns + 1 => do
    match ← accept [.comma] with
    | none => return found
    | some _ =>
      let name ← expect .identifier "Expected parameter name"
      moreParams (found.push name.lexeme) turns

def params (turns : Nat) : Parse (Array String) := do
  if ← check .rightParen then return #[]
  let first ← expect .identifier "Expected parameter name"
  moreParams #[first.lexeme] turns

/-- `fn name ( params ) block` -/
def functionDeclarationBody (turns : Nat) : Parse Node := do
  let keyword ← expectKind .fnWord
  let name ← expect .identifier "Expected function name"
  let _ ← expect .leftParen "Expected '(' after function name"
  let names ← params turns
  let _ ← expect .rightParen "Expected ')' after parameters"
  let body ← parse .block
  noteFunction name.lexeme names.size
  return .fnDecl keyword.line name.lexeme names.toList body

def statementBody : Parse Node := do
  match (← current).kind with
  | .printWord => parse .printStatement
  | .ifWord => parse .ifStatement
  | .whileWord => parse .whileStatement
  | .forWord => parse .forStatement
  | .leftBrace => parse .block
  | .returnWord => parse .returnStatement
  | _ => parse .expressionStatement

/-- `print expression ;` -/
def printStatementBody : Parse Node := do
  let keyword ← expectKind .printWord
  let expression ← parse .expression
  let _ ← expect .semicolon "Expected ';' after value"
  return .printStmt keyword.line expression

/-- `if ( expression ) statement (else statement)?`. The nearest `if` takes the `else`, since it sees
it first. -/
def ifStatementBody : Parse Node := do
  let keyword ← expectKind .ifWord
  let _ ← expect .leftParen "Expected '(' after 'if'"
  let condition ← parse .expression
  let _ ← expect .rightParen "Expected ')' after if condition"
  let thenBranch ← parse .statement
  let elseBranch ← match ← accept [.elseWord] with
    | some _ => parse .statement
    | none => pure .absent
  return .ifStmt keyword.line condition thenBranch elseBranch

/-- `while ( expression ) statement` -/
def whileStatementBody : Parse Node := do
  let keyword ← expectKind .whileWord
  let _ ← expect .leftParen "Expected '(' after 'while'"
  let condition ← parse .expression
  let _ ← expect .rightParen "Expected ')' after while condition"
  let body ← parse .statement
  return .whileStmt keyword.line condition body

/-- The first clause of a `for` loop, with the semicolon that ends it. -/
def forInitializer : Parse Node := do
  match ← accept [.semicolon] with
  | some _ => return .absent
  | none =>
    if ← check .varWord then parse .variableDeclaration else parse .expressionStatement

/-- An expression that may be missing, which the token after it shows. -/
def expressionUnless (stop : Kind) : Parse Node := do
  if ← check stop then return .absent else parse .expression

/-- `for ( initializer? ; condition? ; increment? ) statement`, as the loop it stands for. -/
def forStatementBody : Parse Node := do
  let keyword ← expectKind .forWord
  let _ ← expect .leftParen "Expected '(' after 'for'"
  let initializer ← forInitializer parse
  let condition ← expressionUnless parse .semicolon
  let _ ← expect .semicolon "Expected ';' after loop condition"
  let increment ← expressionUnless parse .rightParen
  let _ ← expect .rightParen "Expected ')' after for clauses"
  let body ← parse .statement
  return .expandFor keyword.line initializer condition increment body

/-- `return expression? ;` -/
def returnStatementBody : Parse Node := do
  let keyword ← expectKind .returnWord
  let value ← expressionUnless parse .semicolon
  let _ ← expect .semicolon "Expected ';' after return value"
  return .returnStmt keyword.line value

/-- Declarations up to a closing brace or the end of the input. -/
def declarations (found : Array Node) : (turns : Nat) → Parse (Array Node)
  | 0 => return found
  | turns + 1 => do
    if (← check .rightBrace) || (← check .endOfInput) then return found
    else declarations (found.push (← parse .declaration)) turns

/-- A block: declarations between braces. -/
def blockBody (turns : Nat) : Parse Node := do
  let brace ← expect .leftBrace "Expected '\x7b'"
  let statements ← declarations parse #[] turns
  let _ ← expect .rightBrace "Expected '\x7d' after block"
  return .block brace.line statements.toList

/-- `expression ;` -/
def expressionStatementBody : Parse Node := do
  let line := (← current).line
  let expression ← parse .expression
  let _ ← expect .semicolon "Expected ';' after expression"
  return .exprStmt line expression

/-- `equality (= assignment)?`, where the left side must turn out to be a name. -/
def assignmentBody : Parse Node := do
  let target ← parse .equality
  match ← accept [.assign] with
  | none => return target
  | some equals =>
    let value ← parse .assignment
    match target with
    | .reference line name => return .assignment line name value
    | _ => throw (.invalidTarget equals.line)

/-- `(operator operand)*` after a left operand, grouped to the left. -/
def chainRest (operand : Phrase) (operators : List Kind) (left : Node) : (turns : Nat) → Parse Node
  | 0 => return left
  | turns + 1 => do
    match ← accept operators with
    | none => return left
    | some operator =>
      let right ← parse operand
      chainRest operand operators (.binary operator.line operator.lexeme left right) turns

/-- `operand (operator operand)*` -/
def chain (operand : Phrase) (operators : List Kind) (turns : Nat) : Parse Node := do
  let first ← parse operand
  chainRest parse operand operators first turns

/-- `(! | -) unary` or a call. -/
def unaryBody : Parse Node := do
  match ← accept [.bang, .minus] with
  | some operator =>
    let operand ← parse .unary
    return .unary operator.line operator.lexeme operand
  | none => parse .call

/-- The arguments after the first one. -/
def moreArguments (found : Array Node) : (turns : Nat) → Parse (Array Node)
  | 0 => return found
  | turns + 1 => do
    match ← accept [.comma] with
    | none => return found
    | some _ => moreArguments (found.push (← parse .expression)) turns

def arguments (turns : Nat) : Parse (Array Node) := do
  if ← check .rightParen then return #[]
  let first ← parse .expression
  moreArguments parse #[first] turns

/-- `( '(' arguments ')' )*` after a callee. -/
def callRest (limit : Nat) (callee : Node) : (turns : Nat) → Parse Node
  | 0 => return callee
  | turns + 1 => do
    match ← accept [.leftParen] with
    | none => return callee
    | some paren =>
      let given ← arguments parse limit
      let _ ← expect .rightParen "Expected ')' after arguments"
      callRest limit (.call paren.line callee given.toList) turns

def callBody (turns : Nat) : Parse Node := do
  let callee ← parse .primary
  callRest parse turns callee turns

/-- A literal, a name, an expression in parentheses or a match. -/
def primaryBody : Parse Node := do
  let token ← current
  match token.kind with
  | .number =>
    let _ ← advance
    match Number.read? token.lexeme with
    | some value => return .literal token.line (.number value)
    | none => throw (.notNumber token.lexeme)
  | .trueWord =>
    let _ ← advance
    return .literal token.line (.bool true)
  | .falseWord =>
    let _ ← advance
    return .literal token.line (.bool false)
  | .nullWord =>
    let _ ← advance
    return .literal token.line .null
  | .identifier =>
    let _ ← advance
    return .reference token.line token.lexeme
  | .leftParen =>
    let _ ← advance
    let expression ← parse .expression
    let _ ← expect .rightParen "Expected ')' after expression"
    return expression
  | .matchWord => parse .matching
  | _ => throw (.expected .expression token (Wanted.expression.complaint ""))

/-- `case expression => expression` -/
def arm : Parse Node := do
  let keyword ← expect .caseWord "Expected 'case' before match pattern"
  let pattern ← parse .expression
  let _ ← expect .arrow "Expected '=>' after match pattern"
  let body ← parse .expression
  return .matchArm keyword.line pattern body

/-- Arms up to the closing brace, with commas between them and perhaps one after the last. -/
def arms (found : Array Node) : (turns : Nat) → Parse (Array Node)
  | 0 => return found
  | turns + 1 => do
    if ← check .rightBrace then return found
    let next ← arm parse
    match ← accept [.comma] with
    | some _ => arms (found.push next) turns
    | none => return found.push next

/-- A match: the subject, then its arms between braces. -/
def matchingBody (turns : Nat) : Parse Node := do
  let keyword ← expectKind .matchWord
  let subject ← parse .expression
  let _ ← expect .leftBrace "Expected '\x7b' after match subject"
  let found ← arms parse #[] turns
  let _ ← expect .rightBrace "Expected '\x7d' after match cases"
  return .matching keyword.line subject found.toList

/-- One phrase in terms of the phrases inside it. -/
def body (turns : Nat) : Phrase → Parse Node
  | .declaration => declarationBody parse
  | .variableDeclaration => variableDeclarationBody parse
  | .functionDeclaration => functionDeclarationBody parse turns
  | .statement => statementBody parse
  | .printStatement => printStatementBody parse
  | .ifStatement => ifStatementBody parse
  | .whileStatement => whileStatementBody parse
  | .forStatement => forStatementBody parse
  | .returnStatement => returnStatementBody parse
  | .block => blockBody parse turns
  | .expressionStatement => expressionStatementBody parse
  | .expression => parse .assignment
  | .assignment => assignmentBody parse
  | .equality => chain parse .comparison [.equal, .notEqual] turns
  | .comparison => chain parse .term [.greater, .greaterEqual, .less, .lessEqual] turns
  | .term => chain parse .factor [.plus, .minus] turns
  | .factor => chain parse .unary [.star, .slash] turns
  | .unary => unaryBody parse
  | .call => callBody parse turns
  | .primary => primaryBody parse
  | .matching => matchingBody parse turns

end

/-- The parser of a phrase in which phrases nest at most `depth` deep. -/
def parseWithin (turns : Nat) : (depth : Nat) → Phrase → Parse Node
  | 0, _ => throw .depthExceeded
  | depth + 1, phrase => body (parseWithin turns depth) turns phrase

end Phrase

namespace Parse

/-- Reads one phrase from the front of a stream. -/
def phrase (depth : Nat) (phrase : Phrase) : Parse Node := do
  phrase.parseWithin (← get).size depth

/-- A declaration of the program itself, where reaching the depth limit is an error of the text. -/
def topLevel (turns depth : Nat) : Parse Node := fun stream =>
  match Phrase.declaration.parseWithin turns depth stream with
  | .error .depthExceeded reached => .error (.nestedTooDeeply reached.current.line) reached
  | result => result

def programFrom (limit depth : Nat) (found : Array Node) : (turns : Nat) → Parse (Array Node)
  | 0 => return found
  | turns + 1 => do
    if ← check .endOfInput then return found
    else programFrom limit depth (found.push (← topLevel limit depth)) turns

/-- A whole program: declarations up to the end of the input. -/
def program (depth : Nat) : Parse (List Node) := do
  let size := (← get).size
  let found ← programFrom size depth #[] size
  return found.toList

end Parse

end Scriptlet
