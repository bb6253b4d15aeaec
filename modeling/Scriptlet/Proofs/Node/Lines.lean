import Scriptlet.Parsing.Phrase
import Scriptlet.Proofs.Node.WellFormed

/-! Trees and tokens with other lines. -/
namespace Scriptlet

namespace Node

mutual

/-- The same tree with the line of each node changed. -/
def mapLines (change : Int → Int) (node : Node) : Node :=
  match node with
  | .literal line value => .literal (change line) value
  | .binary line operator left right =>
    .binary (change line) operator (mapLines change left) (mapLines change right)
  | .unary line operator operand => .unary (change line) operator (mapLines change operand)
  | .reference line name => .reference (change line) name
  | .assignment line name value => .assignment (change line) name (mapLines change value)
  | .call line callee arguments =>
    .call (change line) (mapLines change callee) (mapLinesAll change arguments)
  | .matchArm line pattern body =>
    .matchArm (change line) (mapLines change pattern) (mapLines change body)
  | .matching line subject arms =>
    .matching (change line) (mapLines change subject) (mapLinesAll change arms)
  | .exprStmt line expression => .exprStmt (change line) (mapLines change expression)
  | .varDecl line name initializer => .varDecl (change line) name (mapLines change initializer)
  | .printStmt line expression => .printStmt (change line) (mapLines change expression)
  | .ifStmt line condition thenBranch elseBranch =>
    .ifStmt (change line) (mapLines change condition) (mapLines change thenBranch)
      (mapLines change elseBranch)
  | .whileStmt line condition body =>
    .whileStmt (change line) (mapLines change condition) (mapLines change body)
  | .forStmt line initializer condition increment body =>
    .forStmt (change line) (mapLines change initializer) (mapLines change condition)
      (mapLines change increment) (mapLines change body)
  | .block line statements => .block (change line) (mapLinesAll change statements)
  | .fnDecl line name params body => .fnDecl (change line) name params (mapLines change body)
  | .returnStmt line value => .returnStmt (change line) (mapLines change value)
  | .bare line kind => .bare (change line) kind
  | .atom value => .atom value
termination_by structural node

def mapLinesAll (change : Int → Int) (nodes : List Node) : List Node :=
  match nodes with
  | [] => []
  | node :: rest => mapLines change node :: mapLinesAll change rest
termination_by structural nodes

end

theorem mapLinesAll_eq (change : Int → Int) (nodes : List Node) :
    mapLinesAll change nodes = nodes.map (mapLines change) := by
  induction nodes with
  | nil => rfl
  | cons node rest ih => rw [mapLinesAll, ih, List.map_cons]

theorem isAbsent_mapLines (change : Int → Int) (node : Node) :
    (node.mapLines change).isAbsent = node.isAbsent := by
  cases node <;> rfl

theorem expandFor_mapLines (change : Int → Int) (line : Int)
    (initializer condition increment body : Node) :
    (expandFor line initializer condition increment body).mapLines change =
      expandFor (change line) (initializer.mapLines change) (condition.mapLines change)
        (increment.mapLines change) (body.mapLines change) := by
  unfold expandFor
  simp only [isAbsent_mapLines, mapLines, mapLinesAll_eq]
  cases initializer.isAbsent <;> cases condition.isAbsent <;> cases increment.isAbsent <;>
    simp [mapLines, mapLinesAll_eq]

mutual

theorem mapLines_self : (node : Node) → mapLines (fun line => line) node = node
  | .literal .. | .reference .. | .bare .. | .atom _ => rfl
  | .binary _ _ left right => by simp only [mapLines, mapLines_self left, mapLines_self right]
  | .unary _ _ inner | .assignment _ _ inner | .exprStmt _ inner | .varDecl _ _ inner
  | .printStmt _ inner | .fnDecl _ _ _ inner | .returnStmt _ inner => by
    simp only [mapLines, mapLines_self inner]
  | .call _ part items | .matching _ part items => by
    simp only [mapLines, mapLines_self part, mapLinesAll_self items]
  | .matchArm _ part other | .whileStmt _ part other => by
    simp only [mapLines, mapLines_self part, mapLines_self other]
  | .ifStmt _ condition part other => by
    simp only [mapLines, mapLines_self condition, mapLines_self part, mapLines_self other]
  | .forStmt _ initializer condition increment body => by
    simp only [mapLines, mapLines_self initializer, mapLines_self condition, mapLines_self increment,
      mapLines_self body]
  | .block _ items => by simp only [mapLines, mapLinesAll_self items]

theorem mapLinesAll_self : (nodes : List Node) → mapLinesAll (fun line => line) nodes = nodes
  | [] => rfl
  | node :: rest => by simp only [mapLinesAll, mapLines_self node, mapLinesAll_self rest]

end

mutual

theorem mapLines_mapLines (second first : Int → Int) : (node : Node) →
    mapLines second (mapLines first node) = mapLines (second ∘ first) node
  | .literal .. | .reference .. | .bare .. | .atom _ => rfl
  | .binary _ _ left right => by
    simp only [mapLines, mapLines_mapLines second first left, mapLines_mapLines second first right,
      Function.comp_apply]
  | .unary _ _ inner | .assignment _ _ inner | .exprStmt _ inner | .varDecl _ _ inner
  | .printStmt _ inner | .fnDecl _ _ _ inner | .returnStmt _ inner => by
    simp only [mapLines, mapLines_mapLines second first inner, Function.comp_apply]
  | .call _ part items | .matching _ part items => by
    simp only [mapLines, mapLines_mapLines second first part,
      mapLinesAll_mapLinesAll second first items, Function.comp_apply]
  | .matchArm _ part other | .whileStmt _ part other => by
    simp only [mapLines, mapLines_mapLines second first part, mapLines_mapLines second first other,
      Function.comp_apply]
  | .ifStmt _ condition part other => by
    simp only [mapLines, mapLines_mapLines second first condition,
      mapLines_mapLines second first part, mapLines_mapLines second first other, Function.comp_apply]
  | .forStmt _ initializer condition increment body => by
    simp only [mapLines, mapLines_mapLines second first initializer,
      mapLines_mapLines second first condition, mapLines_mapLines second first increment,
      mapLines_mapLines second first body, Function.comp_apply]
  | .block _ items => by
    simp only [mapLines, mapLinesAll_mapLinesAll second first items, Function.comp_apply]

theorem mapLinesAll_mapLinesAll (second first : Int → Int) : (nodes : List Node) →
    mapLinesAll second (mapLinesAll first nodes) = mapLinesAll (second ∘ first) nodes
  | [] => rfl
  | node :: rest => by
    simp only [mapLinesAll, mapLines_mapLines second first node,
      mapLinesAll_mapLinesAll second first rest]

end

mutual

/-- To put a tree on one line is to change every line to it. -/
theorem relined_eq (line : Int) : (node : Node) → relined line node = mapLines (fun _ => line) node
  | .literal .. | .reference .. | .bare .. | .atom _ => rfl
  | .binary _ _ left right => by
    simp only [relined, mapLines, relined_eq line left, relined_eq line right]
  | .unary _ _ inner | .assignment _ _ inner | .exprStmt _ inner | .varDecl _ _ inner
  | .printStmt _ inner | .fnDecl _ _ _ inner | .returnStmt _ inner => by
    simp only [relined, mapLines, relined_eq line inner]
  | .call _ part items | .matching _ part items => by
    simp only [relined, mapLines, relined_eq line part, relinedAll_eq line items]
  | .matchArm _ part other | .whileStmt _ part other => by
    simp only [relined, mapLines, relined_eq line part, relined_eq line other]
  | .ifStmt _ condition part other => by
    simp only [relined, mapLines, relined_eq line condition, relined_eq line part,
      relined_eq line other]
  | .forStmt _ initializer condition increment body => by
    simp only [relined, mapLines, relined_eq line initializer, relined_eq line condition,
      relined_eq line increment, relined_eq line body]
  | .block _ items => by simp only [relined, mapLines, relinedAll_eq line items]

theorem relinedAll_eq (line : Int) : (nodes : List Node) →
    relinedAll line nodes = mapLinesAll (fun _ => line) nodes
  | [] => rfl
  | node :: rest => by
    simp only [relinedAll, mapLinesAll, relined_eq line node, relinedAll_eq line rest]

end

theorem relinedAll_relinedAll (line other : Int) (nodes : List Node) :
    relinedAll line (relinedAll other nodes) = relinedAll line nodes := by
  rw [relinedAll_eq, relinedAll_eq, relinedAll_eq, mapLinesAll_mapLinesAll]
  rfl

end Node

def Token.mapLine (change : Int → Int) (token : Token) : Token :=
  { token with line := change token.line }

/-- The same error where the tokens are on other lines. -/
def ParseError.mapLine (change : Int → Int) : ParseError → ParseError
  | .expected wanted found message => .expected wanted (found.mapLine change) message
  | .invalidTarget line => .invalidTarget (change line)
  | .nestedTooDeeply line => .nestedTooDeeply (change line)
  | error => error

end Scriptlet
