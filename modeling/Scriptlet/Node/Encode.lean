import Scriptlet.Json
import Scriptlet.Node.Rendering

/-! Trees as JSON values: an object for each node, with its kind first and its line last. -/
namespace Scriptlet

def Scalar.toJson : Scalar → Json
  | .null => .null
  | .bool value => .bool value
  | .number value => .number value
  | .integer value => .integer value
  | .text value => .string value

namespace Node

def entry (title : String) (fields : List (String × Json)) (line : Int) : Json :=
  .object (("node_type", .string title) :: (fields ++ [("line", .integer line)]))

mutual

/-- The JSON value of a tree. An absent child is null; no other plain value may stand in the place
of a node. -/
def toJson : Node → Except RenderError Json
  | .literal line value => return entry "Literal" [("value", value.toJson)] line
  | .binary line operator left right => do
    let first ← toJson left
    let second ← toJson right
    return entry "BinaryOp" [("operator", .string operator), ("left", first), ("right", second)] line
  | .unary line operator operand =>
    return entry "UnaryOp" [("operator", .string operator), ("right", ← toJson operand)] line
  | .reference line name => return entry "Variable" [("name", .string name)] line
  | .assignment line name value =>
    return entry "Assignment" [("name", .string name), ("value", ← toJson value)] line
  | .call line callee arguments => do
    let called ← toJson callee
    let given ← toJsonAll arguments
    return entry "Call" [("callee", called), ("arguments", .array given)] line
  | .matchArm line pattern body => do
    let first ← toJson pattern
    let second ← toJson body
    return entry "MatchCase" [("pattern", first), ("body", second)] line
  | .matching line subject arms => do
    let matched ← toJson subject
    let cases ← toJsonAll arms
    return entry "Match" [("subject", matched), ("cases", .array cases)] line
  | .exprStmt line expression =>
    return entry "ExprStmt" [("expression", ← toJson expression)] line
  | .varDecl line name initializer =>
    return entry "VarDecl" [("name", .string name), ("initializer", ← toJson initializer)] line
  | .printStmt line expression => return entry "Print" [("expression", ← toJson expression)] line
  | .ifStmt line condition thenBranch elseBranch => do
    let test ← toJson condition
    let first ← toJson thenBranch
    let second ← toJson elseBranch
    return entry "If" [("condition", test), ("then", first), ("else", second)] line
  | .whileStmt line condition body => do
    let test ← toJson condition
    let inner ← toJson body
    return entry "While" [("condition", test), ("body", inner)] line
  | .forStmt line initializer condition increment body => do
    let start ← toJson initializer
    let test ← toJson condition
    let step ← toJson increment
    let inner ← toJson body
    return entry "For"
      [("initializer", start), ("condition", test), ("increment", step), ("body", inner)] line
  | .block line statements =>
    return entry "Block" [("statements", .array (← toJsonAll statements))] line
  | .fnDecl line name params body => do
    let inner ← toJson body
    return entry "FunctionDecl"
      [("name", .string name), ("params", .array (params.map .string)), ("body", inner)] line
  | .returnStmt line value => return entry "Return" [("value", ← toJson value)] line
  | .bare .. => throw (.notJson "ASTNode")
  | .atom value =>
    match value with
    | .null => return .null
    | other => throw (.notJson other.typeName)

def toJsonAll : List Node → Except RenderError (List Json)
  | [] => return []
  | node :: rest => do
    let first ← toJson node
    let others ← toJsonAll rest
    return first :: others

end

/-- The JSON value of a whole program. -/
def programToJson (program : List Node) : Except RenderError Json := do
  return .object [("node_type", .string "Program"), ("statements", .array (← toJsonAll program))]

end Node

end Scriptlet
