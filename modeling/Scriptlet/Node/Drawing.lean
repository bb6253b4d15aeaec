import Scriptlet.Node.Surface

/-! Drawings of trees: a vertex for each node, numbered in the order in which they are visited, parents
first, and an edge from each node to each of its children. -/
namespace Scriptlet

/-- What is drawn for a node: its label, whether it is an expression, and its children with the
parts that they play. -/
inductive Figure where
  | mk (label : String) (expression : Bool) (children : List (String × Figure))
deriving Inhabited

namespace Figure

mutual

/-- The label of the first figure that lies more than `room` levels below. -/
def beyond? (room : Nat) (figure : Figure) : Option String :=
  match figure with
  | .mk label _ children =>
    match room with
    | 0 => some label
    | below + 1 => anyBeyond? below children
termination_by structural figure

def childBeyond? (room : Nat) (child : String × Figure) : Option String :=
  match child with
  | (_, figure) => beyond? room figure
termination_by structural child

def anyBeyond? (room : Nat) (children : List (String × Figure)) : Option String :=
  match children with
  | [] => none
  | child :: rest => (childBeyond? room child).or (anyBeyond? room rest)
termination_by structural children

end

end Figure

namespace Node

/-- What a node is labelled with. -/
def caption : Node → String
  | .literal _ value => value.literal
  | .reference _ name => name
  | .binary _ operator _ _ => operator
  | .unary _ operator _ => operator
  | .assignment _ name _ => name ++ " ="
  | .varDecl _ name _ => "var " ++ name
  | .fnDecl _ name params _ => signature name params
  | .bare .. => "AST"
  | .atom value => value.typeName
  | node => node.kind?.elim "" NodeKind.title

/-- The caption with the line of the node below it, where lines are shown and the node has one. The
line break is the escape of the dot language, not a line feed. -/
def lineCaption (showLines : Bool) (node : Node) : String :=
  match showLines, node.line? with
  | true, some line =>
    if line = 0 then node.caption else node.caption ++ "\\nline " ++ toString line
  | _, _ => node.caption

def isExpression (node : Node) : Bool :=
  node.kind?.any NodeKind.expressions.contains

def numbered (part : String) (index : Nat) : String :=
  part ++ "[" ++ toString index ++ "]"

mutual

/-- The figure of a tree. -/
def figure (showLines : Bool) (node : Node) : Figure :=
  .mk (node.lineCaption showLines) node.isExpression
    (match node with
    | .binary _ _ left right =>
      [("left", figure showLines left), ("right", figure showLines right)]
    | .unary _ _ operand => [("operand", figure showLines operand)]
    | .assignment _ _ value => [("value", figure showLines value)]
    | .call _ callee arguments =>
      ("callee", figure showLines callee) :: figures showLines "arg" 0 arguments
    | .matchArm _ pattern body =>
      [("pattern", figure showLines pattern), ("body", figure showLines body)]
    | .matching _ subject arms =>
      ("subject", figure showLines subject) :: figures showLines "case" 0 arms
    | .exprStmt _ expression => [("expr", figure showLines expression)]
    | .printStmt _ expression => [("expr", figure showLines expression)]
    | .varDecl _ _ initializer =>
      if initializer.isAbsent then [] else [("init", figure showLines initializer)]
    | .ifStmt _ condition thenBranch elseBranch =>
      [("cond", figure showLines condition), ("then", figure showLines thenBranch)] ++
        if elseBranch.isAbsent then [] else [("else", figure showLines elseBranch)]
    | .whileStmt _ condition body =>
      [("cond", figure showLines condition), ("body", figure showLines body)]
    | .forStmt _ initializer condition increment body =>
      (if initializer.isShown then [("init", figure showLines initializer)] else []) ++
        (if condition.isShown then [("cond", figure showLines condition)] else []) ++
        (if increment.isShown then [("incr", figure showLines increment)] else []) ++
        [("body", figure showLines body)]
    | .block _ statements => figures showLines "stmt" 0 statements
    | .fnDecl _ _ _ body => [("body", figure showLines body)]
    | .returnStmt _ value => if value.isAbsent then [] else [("value", figure showLines value)]
    | .literal .. | .reference .. | .bare .. | .atom _ => [])
termination_by structural node

/-- The figures of numbered children. -/
def figures (showLines : Bool) (part : String) (index : Nat) (nodes : List Node) :
    List (String × Figure) :=
  match nodes with
  | [] => []
  | node :: rest =>
    (numbered part index, figure showLines node) :: figures showLines part (index + 1) rest
termination_by structural nodes

end

end Node

/-- A vertex or an edge of a drawing. Vertices are numbers; the program itself is number zero. -/
inductive Mark where
  | vertex (number : Nat) (label : String) (shape : String)
  | edge (parent child : Nat) (label : String)
deriving DecidableEq

/-- The marks made so far, and the number of the last vertex. -/
structure Drawing where
  marks : Array Mark
  last : Nat

namespace Drawing

/-- The program alone. -/
def start : Drawing :=
  ⟨#[.vertex 0 "Program" "doubleoctagon"], 0⟩

mutual

/-- Adds a figure below a parent: its vertex, the edge to it, and then its children. -/
def add (drawing : Drawing) (parent : Nat) (part : String) (figure : Figure) : Drawing :=
  match figure with
  | .mk label expression children =>
    let number := drawing.last + 1
    let shape := if expression then "ellipse" else "box"
    addChildren
      ⟨(drawing.marks.push (.vertex number label shape)).push (.edge parent number part), number⟩
      number children
termination_by structural figure

def addChild (drawing : Drawing) (parent : Nat) (child : String × Figure) : Drawing :=
  match child with
  | (part, figure) => add drawing parent part figure
termination_by structural child

def addChildren (drawing : Drawing) (parent : Nat) (children : List (String × Figure)) : Drawing :=
  match children with
  | [] => drawing
  | child :: rest => addChildren (addChild drawing parent child) parent rest
termination_by structural children

end

def rootParts (showLines : Bool) : Nat → List Node → List (String × Figure)
  | _, [] => []
  | index, node :: rest => (toString index, node.figure showLines) :: rootParts showLines (index + 1) rest

/-- The drawing of a program, whose statements are numbered from zero. -/
def ofProgram (showLines : Bool) (program : List Node) : Drawing :=
  start.addChildren 0 (rootParts showLines 0 program)

end Drawing

/-- What a vertex is called. -/
def Mark.vertexName (number : Nat) : String :=
  if number = 0 then "program" else "n" ++ toString number

namespace Node

mutual

/-- Whether a plain value is drawn in the place of a node. -/
def drawsAtom (node : Node) : Bool :=
  match node with
  | .binary _ _ left right => drawsAtom left || drawsAtom right
  | .unary _ _ operand => drawsAtom operand
  | .assignment _ _ value => drawsAtom value
  | .call _ callee arguments => drawsAtom callee || anyDrawsAtom arguments
  | .matchArm _ pattern body => drawsAtom pattern || drawsAtom body
  | .matching _ subject arms => drawsAtom subject || anyDrawsAtom arms
  | .exprStmt _ expression => drawsAtom expression
  | .printStmt _ expression => drawsAtom expression
  | .varDecl _ _ initializer => !initializer.isAbsent && drawsAtom initializer
  | .ifStmt _ condition thenBranch elseBranch =>
    drawsAtom condition || drawsAtom thenBranch || !elseBranch.isAbsent && drawsAtom elseBranch
  | .whileStmt _ condition body => drawsAtom condition || drawsAtom body
  | .forStmt _ initializer condition increment body =>
    initializer.isShown && drawsAtom initializer || condition.isShown && drawsAtom condition ||
      increment.isShown && drawsAtom increment || drawsAtom body
  | .block _ statements => anyDrawsAtom statements
  | .fnDecl _ _ _ body => drawsAtom body
  | .returnStmt _ value => !value.isAbsent && drawsAtom value
  | .literal .. | .reference .. | .bare .. => false
  | .atom _ => true
termination_by structural node

def anyDrawsAtom (nodes : List Node) : Bool :=
  match nodes with
  | [] => false
  | node :: rest => drawsAtom node || anyDrawsAtom rest
termination_by structural nodes

end

/-- The drawing of a program. Lines can only be shown where every part is a node. -/
def drawProgram (showLines : Bool) (program : List Node) : Except RenderError Drawing :=
  if showLines && anyDrawsAtom program then .error .noLine
  else .ok (Drawing.ofProgram showLines program)

end Node

end Scriptlet
