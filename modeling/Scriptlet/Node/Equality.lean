import Scriptlet.Node

/-! Equality of trees. Two nodes are equal when they are of the same kind and have equal contents;
the lines they come from do not matter. -/
namespace Scriptlet.Node

/-- Compares second parts only when the first parts are equal. -/
def andAlso (first : Option Bool) (second : Unit → Option Bool) : Option Bool :=
  match first with
  | some true => second ()
  | other => other

mutual

/-- Compares two trees. There is no answer when that would take more than `room` levels. -/
def equal? (room : Nat) (left right : Node) : Option Bool :=
  match room, left, right with
  | 0, _, _ => none
  | _ + 1, .literal _ value, .literal _ value' => some (value.loose value')
  | room + 1, .binary _ operator first second, .binary _ operator' first' second' =>
    andAlso (equal? room first first') fun _ =>
      andAlso (some (operator == operator')) fun _ => equal? room second second'
  | room + 1, .unary _ operator operand, .unary _ operator' operand' =>
    andAlso (some (operator == operator')) fun _ => equal? room operand operand'
  | _ + 1, .reference _ name, .reference _ name' => some (name == name')
  | room + 1, .assignment _ name value, .assignment _ name' value' =>
    andAlso (some (name == name')) fun _ => equal? room value value'
  | room + 1, .call _ callee arguments, .call _ callee' arguments' =>
    andAlso (equal? room callee callee') fun _ => equalAll? room arguments arguments'
  | room + 1, .matchArm _ pattern body, .matchArm _ pattern' body' =>
    andAlso (equal? room pattern pattern') fun _ => equal? room body body'
  | room + 1, .matching _ subject arms, .matching _ subject' arms' =>
    andAlso (equal? room subject subject') fun _ => equalAll? room arms arms'
  | room + 1, .exprStmt _ expression, .exprStmt _ expression' =>
    equal? room expression expression'
  | room + 1, .varDecl _ name initializer, .varDecl _ name' initializer' =>
    andAlso (some (name == name')) fun _ => equal? room initializer initializer'
  | room + 1, .printStmt _ expression, .printStmt _ expression' =>
    equal? room expression expression'
  | room + 1, .ifStmt _ condition thenBranch elseBranch,
      .ifStmt _ condition' thenBranch' elseBranch' =>
    andAlso (equal? room condition condition') fun _ =>
      andAlso (equal? room thenBranch thenBranch') fun _ => equal? room elseBranch elseBranch'
  | room + 1, .whileStmt _ condition body, .whileStmt _ condition' body' =>
    andAlso (equal? room condition condition') fun _ => equal? room body body'
  | room + 1, .forStmt _ initializer condition increment body,
      .forStmt _ initializer' condition' increment' body' =>
    andAlso (equal? room initializer initializer') fun _ =>
      andAlso (equal? room condition condition') fun _ =>
        andAlso (equal? room increment increment') fun _ => equal? room body body'
  | room + 1, .block _ statements, .block _ statements' => equalAll? room statements statements'
  | room + 1, .fnDecl _ name params body, .fnDecl _ name' params' body' =>
    andAlso (some (name == name' && params == params')) fun _ => equal? room body body'
  | room + 1, .returnStmt _ value, .returnStmt _ value' => equal? room value value'
  | _ + 1, .bare _ kind, .bare _ kind' => some (kind == kind')
  | _ + 1, .atom value, .atom value' => some (value.loose value')
  | _ + 1, _, _ => some false
termination_by structural left

/-- Compares item by item, and the lengths last. -/
def equalAll? (room : Nat) (left right : List Node) : Option Bool :=
  match left, right with
  | [], [] => some true
  | first :: rest, first' :: rest' =>
    andAlso (equal? room first first') fun _ => equalAll? room rest rest'
  | _, _ => some false
termination_by structural left

end

/-- Compares two programs; those of different lengths are not looked into. -/
def programEqual? (room : Nat) (left right : List Node) : Option Bool :=
  if left.length = right.length then equalAll? room left right else some false

end Scriptlet.Node
