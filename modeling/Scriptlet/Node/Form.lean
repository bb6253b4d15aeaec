import Scriptlet.Node

/-! The constructor form of a tree, which names every field and shows all of it on one line. -/
namespace Scriptlet.Node

/-- The opening of a form: the kind, which is also shown with its number, and the line. -/
def formHead (title : String) (kind : NodeKind) (line : Int) : String :=
  title ++ "(type=<NodeType." ++ kind.label ++ ": " ++ toString kind.number ++ ">, line=" ++
    toString line

def formNode (kind : NodeKind) (line : Int) (fields : List (String × String)) : String :=
  formHead (kind.title ++ "Node") kind line ++
    String.join (fields.map fun field => ", " ++ field.1 ++ "=" ++ field.2) ++ ")"

/-- A sequence in parentheses; a single item is followed by a comma. -/
def formSequence : List String → String
  | [] => "()"
  | [item] => "(" ++ item ++ ",)"
  | items => "(" ++ String.intercalate ", " items ++ ")"

mutual

def form : Node → String
  | .literal line value => formNode .literal line [("value", value.form)]
  | .binary line operator left right =>
    formNode .binary line
      [("left", form left), ("operator", Text.quoted operator), ("right", form right)]
  | .unary line operator operand =>
    formNode .unary line [("operator", Text.quoted operator), ("right", form operand)]
  | .reference line name => formNode .reference line [("name", Text.quoted name)]
  | .assignment line name value =>
    formNode .assignment line [("name", Text.quoted name), ("value", form value)]
  | .call line callee arguments =>
    formNode .call line
      [("callee", form callee), ("arguments", formSequence (formAll arguments))]
  | .matchArm line pattern body =>
    formNode .matchArm line [("pattern", form pattern), ("body", form body)]
  | .matching line subject arms =>
    formNode .matching line [("subject", form subject), ("cases", formSequence (formAll arms))]
  | .exprStmt line expression => formNode .exprStmt line [("expression", form expression)]
  | .varDecl line name initializer =>
    formNode .varDecl line [("name", Text.quoted name), ("initializer", form initializer)]
  | .printStmt line expression => formNode .printStmt line [("expression", form expression)]
  | .ifStmt line condition thenBranch elseBranch =>
    formNode .ifStmt line
      [("condition", form condition), ("then_branch", form thenBranch),
       ("else_branch", form elseBranch)]
  | .whileStmt line condition body =>
    formNode .whileStmt line [("condition", form condition), ("body", form body)]
  | .forStmt line initializer condition increment body =>
    formNode .forStmt line
      [("initializer", form initializer), ("condition", form condition),
       ("increment", form increment), ("body", form body)]
  | .block line statements =>
    formNode .block line [("statements", formSequence (formAll statements))]
  | .fnDecl line name params body =>
    formNode .fnDecl line
      [("name", Text.quoted name), ("params", formSequence (params.map Text.quoted)),
       ("body", form body)]
  | .returnStmt line value => formNode .returnStmt line [("value", form value)]
  | .bare line kind => formHead "ASTNode" kind line ++ ")"
  | .atom value => value.form

def formAll : List Node → List String
  | [] => []
  | node :: rest => form node :: formAll rest

end

end Scriptlet.Node
