import Scriptlet.Node.Rendering

/-! The outline of a tree: one line for each node, indented below its parent and marked with the part
it plays there. -/
namespace Scriptlet.Node

/-- A line of an outline. A negative indentation counts as none. -/
def outlineLine (indent : Int) (role title : String) : String :=
  String.ofList (List.replicate indent.toNat ' ') ++ role ++ title

def item (part : String) (index : Nat) : String :=
  part ++ "[" ++ toString index ++ "]: "

mutual

/-- The lines of a node. The first is its own; an optional child is left out unless it is shown. -/
def outlineLines (indent : Int) (role : String) (node : Node) : List String :=
  match node with
  | .literal _ value => [outlineLine indent role ("Literal(" ++ value.literal ++ ")")]
  | .reference _ name => [outlineLine indent role ("Variable(" ++ name ++ ")")]
  | .binary _ operator left right =>
    outlineLine indent role ("BinaryOp(" ++ operator ++ ")") ::
      (outlineLines (indent + 2) "left: " left ++ outlineLines (indent + 2) "right: " right)
  | .unary _ operator operand =>
    outlineLine indent role ("UnaryOp(" ++ operator ++ ")") ::
      outlineLines (indent + 2) "" operand
  | .assignment _ name value =>
    outlineLine indent role ("Assignment(" ++ name ++ ")") ::
      outlineLines (indent + 2) "value: " value
  | .call _ callee arguments =>
    outlineLine indent role "Call" ::
      (outlineLines (indent + 2) "callee: " callee ++
        outlineItems (indent + 4) "arg" 0 arguments)
  | .matchArm _ pattern body =>
    outlineLine indent role "Case" ::
      (outlineLines (indent + 2) "pattern: " pattern ++ outlineLines (indent + 2) "body: " body)
  | .matching _ subject arms =>
    outlineLine indent role "Match" ::
      (outlineLines (indent + 2) "subject: " subject ++
        outlineItems (indent + 4) "case" 0 arms)
  | .fnDecl _ name params body =>
    outlineLine indent role
        ("FunctionDecl(" ++ name ++ ", params=[" ++ String.intercalate ", " params ++ "])") ::
      outlineLines (indent + 4) "body: " body
  | .returnStmt _ value =>
    outlineLine indent role "Return" ::
      (if value.isShown then outlineLines (indent + 2) "value: " value else [])
  | .exprStmt _ expression =>
    outlineLine indent role "ExpressionStatement" :: outlineLines (indent + 2) "" expression
  | .printStmt _ expression =>
    outlineLine indent role "Print" :: outlineLines (indent + 2) "" expression
  | .whileStmt _ condition body =>
    outlineLine indent role "WhileStatement" ::
      (outlineLines (indent + 4) "condition: " condition ++
        outlineLines (indent + 4) "body: " body)
  | .forStmt _ initializer condition increment body =>
    outlineLine indent role "ForStatement" ::
      ((if initializer.isShown then outlineLines (indent + 4) "init: " initializer else []) ++
        (if condition.isShown then outlineLines (indent + 4) "condition: " condition else []) ++
        (if increment.isShown then outlineLines (indent + 4) "increment: " increment else []) ++
        outlineLines (indent + 4) "body: " body)
  | .ifStmt _ condition thenBranch elseBranch =>
    outlineLine indent role "IfStatement" ::
      (outlineLines (indent + 4) "condition: " condition ++
        outlineLines (indent + 4) "then: " thenBranch ++
        (if elseBranch.isShown then outlineLines (indent + 4) "else: " elseBranch else []))
  | .block _ statements =>
    outlineLine indent role "Block" :: outlineItems (indent + 4) "stmt" 0 statements
  | .varDecl _ name initializer =>
    if initializer.isShown then
      outlineLine indent role ("VarDecl(" ++ name ++ " = ...)") ::
        outlineLines (indent + 2) "init: " initializer
    else [outlineLine indent role ("VarDecl(" ++ name ++ ")")]
  | .bare .. => [outlineLine indent role "Unknown node type: <class 'ast_nodes.ASTNode'>"]
  | .atom value => [outlineLine indent role value.plain]
termination_by structural node

/-- The lines of numbered children. -/
def outlineItems (indent : Int) (part : String) (index : Nat) (nodes : List Node) : List String :=
  match nodes with
  | [] => []
  | node :: rest =>
    outlineLines indent (item part index) node ++ outlineItems indent part (index + 1) rest
termination_by structural nodes

end

/-- The outline as one text. Below the root, lines with nothing on them are left out. -/
def outline (indent : Int) (role : String) (node : Node) : String :=
  match node with
  | .atom value => outlineLine indent role value.plain
  | _ => String.intercalate "\n" ((outlineLines indent role node).filter (· != ""))

def programOutlines : Nat → List Node → List String
  | _, [] => []
  | index, node :: rest =>
    outline 4 (item "stmt" index) node :: programOutlines (index + 1) rest

/-- The outline of a whole program. -/
def programOutline (program : List Node) : String :=
  String.intercalate "\n" ("Program" :: programOutlines 0 program)

end Scriptlet.Node
