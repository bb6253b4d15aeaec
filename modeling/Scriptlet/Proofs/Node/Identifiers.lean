import Scriptlet.Node

/-! The identifiers of a program: the names that it looks up, assigns and declares, with those of its
functions and their parameters. -/
namespace Scriptlet.Node

mutual

def identifiers (node : Node) : List String :=
  match node with
  | .literal .. | .bare .. | .atom _ => []
  | .reference _ name => [name]
  | .assignment _ name inner | .varDecl _ name inner => name :: identifiers inner
  | .unary _ _ inner | .exprStmt _ inner | .printStmt _ inner | .returnStmt _ inner => identifiers inner
  | .binary _ _ first second | .matchArm _ first second | .whileStmt _ first second =>
    identifiers first ++ identifiers second
  | .call _ part items | .matching _ part items => identifiers part ++ identifiersAll items
  | .ifStmt _ condition thenBranch elseBranch =>
    identifiers condition ++ (identifiers thenBranch ++ identifiers elseBranch)
  | .forStmt _ initializer condition increment body =>
    identifiers initializer ++
      (identifiers condition ++ (identifiers increment ++ identifiers body))
  | .block _ statements => identifiersAll statements
  | .fnDecl _ name params body => name :: (params ++ identifiers body)
termination_by structural node

def identifiersAll (nodes : List Node) : List String :=
  match nodes with
  | [] => []
  | node :: rest => identifiers node ++ identifiersAll rest
termination_by structural nodes

end

end Scriptlet.Node
