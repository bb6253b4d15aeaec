import Scriptlet.Node.Drawing
import Scriptlet.Proofs.Node.Parts

/-! The parts that trees play in the tree above them, and the nodes of a tree in the order in which they
are met from the top down. -/
namespace Scriptlet.Node

/-- The trees directly below a tree, each with the part that it plays. -/
def fields : Node → List (String × Node)
  | .binary _ _ left right => [("left", left), ("right", right)]
  | .unary _ _ operand => [("operand", operand)]
  | .assignment _ _ value | .returnStmt _ value => [("value", value)]
  | .call _ callee arguments =>
    ("callee", callee) :: arguments.mapIdx fun index argument => (numbered "arg" index, argument)
  | .matchArm _ pattern body => [("pattern", pattern), ("body", body)]
  | .matching _ subject arms =>
    ("subject", subject) :: arms.mapIdx fun index arm => (numbered "case" index, arm)
  | .exprStmt _ expression | .printStmt _ expression => [("expr", expression)]
  | .varDecl _ _ initializer => [("init", initializer)]
  | .ifStmt _ condition thenBranch elseBranch =>
    [("cond", condition), ("then", thenBranch), ("else", elseBranch)]
  | .whileStmt _ condition body => [("cond", condition), ("body", body)]
  | .forStmt _ initializer condition increment body =>
    [("init", initializer), ("cond", condition), ("incr", increment), ("body", body)]
  | .block _ statements => statements.mapIdx fun index statement => (numbered "stmt" index, statement)
  | .fnDecl _ _ _ body => [("body", body)]
  | .literal .. | .reference .. | .bare .. | .atom _ => []

/-- The parts of a tree that are there. -/
def parts (node : Node) : List (String × Node) :=
  (fields node).filter fun field => !field.2.isAbsent

mutual

/-- The nodes of a tree, each before those below it. A plain value is no node. -/
def preorder (node : Node) : List Node :=
  match node with
  | .atom _ => []
  | .literal .. | .reference .. | .bare .. => [node]
  | .unary _ _ inner | .assignment _ _ inner | .exprStmt _ inner | .varDecl _ _ inner
  | .printStmt _ inner | .fnDecl _ _ _ inner | .returnStmt _ inner => node :: preorder inner
  | .binary _ _ first second | .matchArm _ first second | .whileStmt _ first second =>
    node :: (preorder first ++ preorder second)
  | .call _ part items | .matching _ part items => node :: (preorder part ++ preorderAll items)
  | .ifStmt _ condition thenBranch elseBranch =>
    node :: (preorder condition ++ (preorder thenBranch ++ preorder elseBranch))
  | .forStmt _ initializer condition increment body =>
    node :: (preorder initializer ++
      (preorder condition ++ (preorder increment ++ preorder body)))
  | .block _ statements => node :: preorderAll statements
termination_by structural node

def preorderAll (nodes : List Node) : List Node :=
  match nodes with
  | [] => []
  | node :: rest => preorder node ++ preorderAll rest
termination_by structural nodes

end

variable {node inner : Node}

theorem fields_children (node : Node) : (fields node).map Prod.snd = children node := by
  have listed : ∀ (part : String) (nodes : List Node),
      (nodes.mapIdx fun index inner => (numbered part index, inner)).map Prod.snd = nodes :=
    fun part nodes => List.ext_getElem (by simp) (by simp)
  cases node <;> simp [fields, children, listed]

theorem part_child {part : String × Node} (listed : part ∈ parts node) :
    part.2 ∈ children node ∧ part.2.isAbsent = false := by
  obtain ⟨field, present⟩ := List.mem_filter.mp listed
  rw [← fields_children]
  exact ⟨List.mem_map_of_mem field, by simpa using present⟩

/-- Where nothing is missing the parts are all fields. -/
theorem parts_eq_fields (present : ∀ inner ∈ children node, inner.isAbsent = false) :
    parts node = fields node := by
  refine List.filter_eq_self.mpr fun field listed => ?_
  rw [present field.2 (by rw [← fields_children]; exact List.mem_map_of_mem listed)]
  rfl

theorem preorderAll_eq (nodes : List Node) : preorderAll nodes = nodes.flatMap preorder := by
  induction nodes with
  | nil => rfl
  | cons node rest ih => rw [preorderAll, ih, List.flatMap_cons]

theorem preorder_absent (absent : inner.isAbsent) : preorder inner = [] := by
  cases inner <;> first | rfl | cases absent

theorem preorder_children (isNode : ∀ value, node ≠ .atom value) :
    preorder node = node :: (children node).flatMap preorder := by
  cases node with
  | atom value => exact absurd rfl (isNode value)
  | _ => simp [preorder, children, preorderAll_eq]

/-- The nodes of a tree are the tree itself and then the nodes of its parts. -/
theorem preorder_parts (isNode : ∀ value, node ≠ .atom value) :
    preorder node = node :: (parts node).flatMap fun part => preorder part.2 := by
  rw [preorder_children isNode, ← fields_children, parts, List.flatMap_map]
  congr 1
  induction fields node with
  | nil => rfl
  | cons field rest ih =>
    cases missing : field.2.isAbsent with
    | false => simp [missing, ih]
    | true => simp [missing, ih, preorder_absent missing]

end Scriptlet.Node
