import Scriptlet.Scalar

/-! Program trees. One type holds expressions, statements and whatever stands in their place, because
trees may be built by hand as well as parsed: a parsed tree keeps expressions and statements apart,
a tree built by hand need not. -/
namespace Scriptlet

inductive NodeKind where
  | literal | binary | unary | reference | assignment | call | matchArm | matching
  | exprStmt | varDecl | printStmt | ifStmt | whileStmt | forStmt | block | fnDecl | returnStmt
deriving DecidableEq, Inhabited

namespace NodeKind

/-- Every kind, in the order of their numbers. -/
def all : List NodeKind :=
  [.literal, .binary, .unary, .reference, .assignment, .call, .matchArm, .matching, .exprStmt,
   .varDecl, .printStmt, .ifStmt, .whileStmt, .forStmt, .block, .fnDecl, .returnStmt]

def label : NodeKind → String
  | .literal => "LITERAL"
  | .binary => "BINARY_OP"
  | .unary => "UNARY_OP"
  | .reference => "VARIABLE"
  | .assignment => "ASSIGNMENT"
  | .call => "CALL"
  | .matchArm => "MATCH_CASE"
  | .matching => "MATCH"
  | .exprStmt => "EXPR_STMT"
  | .varDecl => "VAR_DECL"
  | .printStmt => "PRINT_STMT"
  | .ifStmt => "IF_STMT"
  | .whileStmt => "WHILE_STMT"
  | .forStmt => "FOR_STMT"
  | .block => "BLOCK"
  | .fnDecl => "FUNC_DECL"
  | .returnStmt => "RETURN_STMT"

def ofLabel? (label : String) : Option NodeKind :=
  all.find? (·.label == label)

/-- Kinds are numbered from one. -/
def number (kind : NodeKind) : Nat :=
  all.idxOf kind + 1

/-- The name of the nodes of this kind in constructor forms and drawings. -/
def title : NodeKind → String
  | .literal => "Literal"
  | .binary => "BinaryOp"
  | .unary => "UnaryOp"
  | .reference => "Variable"
  | .assignment => "Assignment"
  | .call => "Call"
  | .matchArm => "MatchCase"
  | .matching => "Match"
  | .exprStmt => "ExpressionStatement"
  | .varDecl => "VariableDeclaration"
  | .printStmt => "PrintStatement"
  | .ifStmt => "IfStatement"
  | .whileStmt => "WhileStatement"
  | .forStmt => "ForStatement"
  | .block => "Block"
  | .fnDecl => "FunctionDeclaration"
  | .returnStmt => "ReturnStatement"

def expressions : List NodeKind :=
  [.literal, .binary, .unary, .reference, .assignment, .call, .matching]

def statements : List NodeKind :=
  [.exprStmt, .varDecl, .printStmt, .ifStmt, .whileStmt, .block, .fnDecl, .returnStmt]

/-- The kinds that never stand alone: the arm of a match, and the loop that parsing expands. -/
def auxiliary : List NodeKind :=
  [.matchArm, .forStmt]

end NodeKind

/-- A node with the line that introduced it, or an `atom`: a plain value in the place of a node. The
atom `null` marks an optional child that is absent. -/
inductive Node where
  | literal (line : Int) (value : Scalar)
  | binary (line : Int) (operator : String) (left right : Node)
  | unary (line : Int) (operator : String) (operand : Node)
  | reference (line : Int) (name : String)
  | assignment (line : Int) (name : String) (value : Node)
  | call (line : Int) (callee : Node) (arguments : List Node)
  | matchArm (line : Int) (pattern body : Node)
  | matching (line : Int) (subject : Node) (arms : List Node)
  | exprStmt (line : Int) (expression : Node)
  | varDecl (line : Int) (name : String) (initializer : Node)
  | printStmt (line : Int) (expression : Node)
  | ifStmt (line : Int) (condition thenBranch elseBranch : Node)
  | whileStmt (line : Int) (condition body : Node)
  | forStmt (line : Int) (initializer condition increment body : Node)
  | block (line : Int) (statements : List Node)
  | fnDecl (line : Int) (name : String) (params : List String) (body : Node)
  | returnStmt (line : Int) (value : Node)
  /-- A node that says its kind and has no content. -/
  | bare (line : Int) (kind : NodeKind)
  | atom (value : Scalar)
deriving Inhabited

namespace Node

@[match_pattern]
def absent : Node := .atom .null

def isAbsent : Node → Bool
  | absent => true
  | _ => false

/-- Whether an optional child is shown: an atom that counts as false is not. -/
def isShown : Node → Bool
  | .atom value => value.truthy
  | _ => true

/-- The kind of a node that has its content. -/
def kind? : Node → Option NodeKind
  | .literal .. => some .literal
  | .binary .. => some .binary
  | .unary .. => some .unary
  | .reference .. => some .reference
  | .assignment .. => some .assignment
  | .call .. => some .call
  | .matchArm .. => some .matchArm
  | .matching .. => some .matching
  | .exprStmt .. => some .exprStmt
  | .varDecl .. => some .varDecl
  | .printStmt .. => some .printStmt
  | .ifStmt .. => some .ifStmt
  | .whileStmt .. => some .whileStmt
  | .forStmt .. => some .forStmt
  | .block .. => some .block
  | .fnDecl .. => some .fnDecl
  | .returnStmt .. => some .returnStmt
  | .bare .. | .atom _ => none

def line? : Node → Option Int
  | .literal line _ | .binary line .. | .unary line .. | .reference line _ | .assignment line ..
  | .call line .. | .matchArm line .. | .matching line .. | .exprStmt line _ | .varDecl line ..
  | .printStmt line _ | .ifStmt line .. | .whileStmt line .. | .forStmt line .. | .block line _
  | .fnDecl line .. | .returnStmt line _ | .bare line _ => some line
  | .atom _ => none

def typeName : Node → String
  | .atom value => value.typeName
  | .bare .. => "ASTNode"
  | node => (node.kind?.elim "" NodeKind.title) ++ "Node"

/-- The meaning of a `for` loop as a block of its initializer and a `while` loop whose body ends
with the increment. An absent condition is true. -/
def expandFor (line : Int) (initializer condition increment body : Node) : Node :=
  let step := if increment.isAbsent then [] else [.exprStmt line increment]
  let test := if condition.isAbsent then .literal line (.bool true) else condition
  let loop := .whileStmt line test (.block line (body :: step))
  .block line (if initializer.isAbsent then [loop] else [initializer, loop])

/-- The meaning of a tree that is a `for` loop. -/
def desugar? : Node → Option Node
  | .forStmt line initializer condition increment body =>
    some (expandFor line initializer condition increment body)
  | _ => none

mutual

/-- Whether a tree has at most `room` levels. -/
def fits (room : Nat) (node : Node) : Bool :=
  match room, node with
  | 0, _ => false
  | room + 1, .binary _ _ left right => fits room left && fits room right
  | room + 1, .unary _ _ operand => fits room operand
  | room + 1, .assignment _ _ value => fits room value
  | room + 1, .call _ callee arguments => fits room callee && fitAll room arguments
  | room + 1, .matchArm _ pattern body => fits room pattern && fits room body
  | room + 1, .matching _ subject arms => fits room subject && fitAll room arms
  | room + 1, .exprStmt _ expression => fits room expression
  | room + 1, .varDecl _ _ initializer => fits room initializer
  | room + 1, .printStmt _ expression => fits room expression
  | room + 1, .ifStmt _ condition thenBranch elseBranch =>
    fits room condition && fits room thenBranch && fits room elseBranch
  | room + 1, .whileStmt _ condition body => fits room condition && fits room body
  | room + 1, .forStmt _ initializer condition increment body =>
    fits room initializer && fits room condition && fits room increment && fits room body
  | room + 1, .block _ statements => fitAll room statements
  | room + 1, .fnDecl _ _ _ body => fits room body
  | room + 1, .returnStmt _ value => fits room value
  | _ + 1, .literal .. | _ + 1, .reference .. | _ + 1, .bare .. | _ + 1, .atom _ => true
termination_by structural node

def fitAll (room : Nat) (nodes : List Node) : Bool :=
  match nodes with
  | [] => true
  | node :: rest => fits room node && fitAll room rest
termination_by structural nodes

end

end Node

end Scriptlet
