import Scriptlet.Node.Rendering

/-! The source form of a node on one line. Binary operations are fully parenthesised, so the text
shows how the parser grouped them; the bodies of compound statements are not shown. -/
namespace Scriptlet.Node

/-- The opening of a function declaration. -/
def signature (name : String) (params : List String) : String :=
  "fn " ++ name ++ "(" ++ String.intercalate ", " params ++ ")"

mutual

/-- The source form of a node, or the plain text of a value that stands in its place. -/
def surfacePart : Node → Except RenderError String
  | .literal _ value => return value.literal
  | .reference _ name => return name
  | .binary _ operator left right =>
    return "(" ++ (← surfacePart left) ++ " " ++ operator ++ " " ++ (← surfacePart right) ++ ")"
  | .unary _ operator operand => return operator ++ (← surfacePart operand)
  | .assignment _ name value => return name ++ " = " ++ (← surfacePart value)
  | .call _ callee arguments => do
    let given ← surfaceParts arguments
    return (← surfacePart callee) ++ "(" ++ String.intercalate ", " given ++ ")"
  | .matchArm _ pattern body =>
    return "case " ++ (← surfacePart pattern) ++ " => " ++ (← surfacePart body)
  | .matching _ subject arms => do
    let cases ← surfaceParts arms
    return "match " ++ (← surfacePart subject) ++ " \x7b " ++ String.intercalate ", " cases ++ " \x7d"
  | .exprStmt _ expression => return (← surfacePart expression) ++ ";"
  | .printStmt _ expression => return "print " ++ (← surfacePart expression) ++ ";"
  | .returnStmt _ value =>
    if value.isShown then return "return " ++ (← surfacePart value) ++ ";" else return "return;"
  | .varDecl _ name initializer =>
    if initializer.isShown then
      return "var " ++ name ++ " = " ++ (← surfacePart initializer) ++ ";"
    else return "var " ++ name ++ ";"
  | .whileStmt _ condition _ => return "while (" ++ (← surfacePart condition) ++ ")"
  | .forStmt _ _ condition _ _ => return "for (; " ++ (← surfacePart condition) ++ "; )"
  | .ifStmt _ condition _ _ => return "if (" ++ (← surfacePart condition) ++ ")"
  | .fnDecl _ name params _ => return signature name params
  | .block .. => return "\x7b...\x7d"
  | .bare .. => throw (.notSource "ASTNode")
  | .atom value => return value.plain

def surfaceParts : List Node → Except RenderError (List String)
  | [] => return []
  | node :: rest => return (← surfacePart node) :: (← surfaceParts rest)

end

/-- The source form of a whole tree. An absent node has the empty text. -/
def surface : Node → Except RenderError String
  | absent => return ""
  | .atom value => throw (.notSource value.typeName)
  | node => surfacePart node

end Scriptlet.Node
