import Scriptlet.Node
import Scriptlet.Token.Lexeme
import Scriptlet.Proofs.Number.Bits

/-! The trees that source text can stand for, described by the trees alone. -/
namespace Scriptlet

/-- A word that is no keyword. -/
def Lexeme.isName (name : String) : Bool :=
  match name.toList with
  | [] => false
  | first :: rest =>
    Text.isLetter first && rest.all isWordChar && decide (Kind.ofWord name = .identifier)

/-- Null, a boolean or a number without sign, as literals are written. -/
def Scalar.isSource : Scalar → Bool
  | .null | .bool _ => true
  | .number value => Number.isUnsigned value
  | _ => false

namespace Node

def binaryOperators : List String :=
  ["==", "!=", ">", ">=", "<", "<=", "+", "-", "*", "/"]

def unaryOperators : List String :=
  ["-", "!"]

/-- Whether a statement ends with an `if` that would take an `else` after it. -/
def endsOpen : Node → Bool
  | .ifStmt _ _ _ otherwise => otherwise.isAbsent || otherwise.endsOpen
  | .whileStmt _ _ body => body.endsOpen
  | _ => false

/-- Whether a statement may declare a name in the scope that it is executed in. -/
def mayDeclare : Node → Bool
  | .varDecl .. | .fnDecl .. => true
  | .ifStmt _ _ thenBranch elseBranch => thenBranch.mayDeclare || elseBranch.mayDeclare
  | .whileStmt _ _ body => body.mayDeclare
  | _ => false

/-- The places where a tree can stand: as an expression, as a statement, or at the top level or
directly in a block, where names may be declared. -/
inductive Role where
  | expression | statement | declaration
deriving DecidableEq

inductive WellFormed : Role → Node → Prop where
  | literal (source : value.isSource) : WellFormed .expression (.literal line value)
  | binary (known : operator ∈ binaryOperators) (left : WellFormed .expression first)
      (right : WellFormed .expression second) :
      WellFormed .expression (.binary line operator first second)
  | unary (known : operator ∈ unaryOperators) (operand : WellFormed .expression part) :
      WellFormed .expression (.unary line operator part)
  | reference (named : Lexeme.isName name) : WellFormed .expression (.reference line name)
  | assignment (named : Lexeme.isName name) (value : WellFormed .expression part) :
      WellFormed .expression (.assignment line name part)
  | call (callee : WellFormed .expression function)
      (each : ∀ argument ∈ arguments, WellFormed .expression argument) :
      WellFormed .expression (.call line function arguments)
  | matching (arms : List (Int × Node × Node)) (subject : WellFormed .expression part)
      (patterns : ∀ arm ∈ arms, WellFormed .expression arm.2.1)
      (bodies : ∀ arm ∈ arms, WellFormed .expression arm.2.2) :
      WellFormed .expression
        (.matching line part (arms.map fun arm => .matchArm arm.1 arm.2.1 arm.2.2))
  | exprStmt (expression : WellFormed .expression part) :
      WellFormed .statement (.exprStmt line part)
  | printStmt (expression : WellFormed .expression part) :
      WellFormed .statement (.printStmt line part)
  | ifOnly (condition : WellFormed .expression test) (branch : WellFormed .statement body) :
      WellFormed .statement (.ifStmt line test body .absent)
  /-- An `else` belongs to the nearest `if` that has none, which must be this one. -/
  | ifElse (condition : WellFormed .expression test) (branch : WellFormed .statement body)
      (closed : body.endsOpen = false) (otherwise : WellFormed .statement other) :
      WellFormed .statement (.ifStmt line test body other)
  | whileStmt (condition : WellFormed .expression test) (branch : WellFormed .statement body) :
      WellFormed .statement (.whileStmt line test body)
  | block (each : ∀ statement ∈ statements, WellFormed .declaration statement) :
      WellFormed .statement (.block line statements)
  | bareReturn : WellFormed .statement (.returnStmt line .absent)
  | returnStmt (value : WellFormed .expression part) : WellFormed .statement (.returnStmt line part)
  | statement (inner : WellFormed .statement node) : WellFormed .declaration node
  | bareVar (named : Lexeme.isName name) : WellFormed .declaration (.varDecl line name .absent)
  | varDecl (named : Lexeme.isName name) (initializer : WellFormed .expression part) :
      WellFormed .declaration (.varDecl line name part)
  | fnDecl (named : Lexeme.isName name) (params : ∀ param ∈ names, Lexeme.isName param)
      (body : ∀ statement ∈ statements, WellFormed .declaration statement) :
      WellFormed .declaration (.fnDecl line name names (.block start statements))

/-- A program whose declarations are all well formed. -/
def WellFormedProgram (program : List Node) : Prop :=
  ∀ node ∈ program, WellFormed .declaration node

theorem WellFormed.not_endsOpen (wellFormed : WellFormed .expression node) :
    node.endsOpen = false := by
  cases wellFormed <;> rfl

theorem WellFormed.not_mayDeclare (wellFormed : WellFormed role node) (inner : role ≠ .declaration) :
    node.mayDeclare = false := by
  induction wellFormed with
  | ifOnly _ _ _ ih => simp [mayDeclare, ih (by decide)]
  | ifElse _ _ _ _ _ ih ihElse => simp [mayDeclare, ih (by decide), ihElse (by decide)]
  | whileStmt _ _ _ ih => simp [mayDeclare, ih (by decide)]
  | statement | bareVar | varDecl | fnDecl => exact absurd rfl inner
  | _ => rfl

theorem WellFormed.present (wellFormed : WellFormed role node) : node.isAbsent = false := by
  induction wellFormed with
  | statement _ ih => exact ih
  | _ => rfl

theorem WellFormed.isShown (wellFormed : WellFormed role node) : node.isShown = true := by
  induction wellFormed with
  | statement _ ih => exact ih
  | _ => rfl

mutual

/-- The same tree with all its nodes on one line. -/
def relined (line : Int) (node : Node) : Node :=
  match node with
  | .literal _ value => .literal line value
  | .binary _ operator left right => .binary line operator (relined line left) (relined line right)
  | .unary _ operator operand => .unary line operator (relined line operand)
  | .reference _ name => .reference line name
  | .assignment _ name value => .assignment line name (relined line value)
  | .call _ callee arguments => .call line (relined line callee) (relinedAll line arguments)
  | .matchArm _ pattern body => .matchArm line (relined line pattern) (relined line body)
  | .matching _ subject arms => .matching line (relined line subject) (relinedAll line arms)
  | .exprStmt _ expression => .exprStmt line (relined line expression)
  | .varDecl _ name initializer => .varDecl line name (relined line initializer)
  | .printStmt _ expression => .printStmt line (relined line expression)
  | .ifStmt _ condition thenBranch elseBranch =>
    .ifStmt line (relined line condition) (relined line thenBranch) (relined line elseBranch)
  | .whileStmt _ condition body => .whileStmt line (relined line condition) (relined line body)
  | .forStmt _ initializer condition increment body =>
    .forStmt line (relined line initializer) (relined line condition) (relined line increment)
      (relined line body)
  | .block _ statements => .block line (relinedAll line statements)
  | .fnDecl _ name params body => .fnDecl line name params (relined line body)
  | .returnStmt _ value => .returnStmt line (relined line value)
  | .bare _ kind => .bare line kind
  | .atom value => .atom value
termination_by structural node

def relinedAll (line : Int) (nodes : List Node) : List Node :=
  match nodes with
  | [] => []
  | node :: rest => relined line node :: relinedAll line rest
termination_by structural nodes

end

/-- Two programs that differ in the lines of their nodes only. -/
def SameButLines (program other : List Node) : Prop :=
  relinedAll 1 program = relinedAll 1 other

end Node

end Scriptlet
