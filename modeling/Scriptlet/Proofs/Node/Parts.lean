import Scriptlet.Proofs.Node.WellFormed

/-! The parts of a tree, and what stands among the parts of a well-formed one. -/
namespace Scriptlet.Node

/-- The trees directly below a tree. -/
def children : Node → List Node
  | .binary _ _ left right => [left, right]
  | .unary _ _ operand => [operand]
  | .assignment _ _ value => [value]
  | .call _ callee arguments => callee :: arguments
  | .matchArm _ pattern body => [pattern, body]
  | .matching _ subject arms => subject :: arms
  | .exprStmt _ expression | .printStmt _ expression => [expression]
  | .varDecl _ _ initializer => [initializer]
  | .ifStmt _ condition thenBranch elseBranch => [condition, thenBranch, elseBranch]
  | .whileStmt _ condition body => [condition, body]
  | .forStmt _ initializer condition increment body => [initializer, condition, increment, body]
  | .block _ statements => statements
  | .fnDecl _ _ _ body => [body]
  | .returnStmt _ value => [value]
  | .literal .. | .reference .. | .bare .. | .atom _ => []

theorem sizeOf_children (node : Node) : ∀ inner ∈ children node, sizeOf inner < sizeOf node := by
  have listed : ∀ nodes : List Node, ∀ inner ∈ nodes, sizeOf inner < sizeOf nodes :=
    fun _ _ => List.sizeOf_lt_of_mem
  cases node with
  | call _ first nodes | matching _ first nodes =>
    refine List.forall_mem_cons.mpr ⟨by simp; omega, fun inner member => ?_⟩
    have smaller := listed nodes inner member
    simp
    omega
  | block _ nodes =>
    intro inner member
    have smaller := listed nodes inner member
    simp
    omega
  | _ => simp [children] <;> omega

/-- What holds of a tree if it holds of the trees directly below it, holds of every tree. -/
@[elab_as_elim]
theorem below_induction {motive : Node → Prop}
    (step : ∀ node, (∀ inner ∈ children node, motive inner) → motive node) (node : Node) :
    motive node :=
  step node fun inner _ => below_induction step inner
termination_by sizeOf node
decreasing_by exact sizeOf_children node inner ‹_›

/-- A tree, or one that is somewhere below it. -/
inductive Part (part : Node) : Node → Prop where
  | whole : Part part part
  | inside {inner : Node} (child : inner ∈ children node) (within : Part part inner) : Part part node

def Throughout (property : Node → Prop) (node : Node) : Prop :=
  ∀ part, Part part node → property part

/-- What stands in a well-formed tree: other such trees, the arms of matches, and nothing where a part
is missing. -/
inductive Belongs : Node → Prop where
  | absent : Belongs .absent
  | arm (pattern : WellFormed .expression first) (body : WellFormed .expression second) :
      Belongs (.matchArm line first second)
  | inRole (wellFormed : WellFormed role node) : Belongs node

variable {node inner part : Node} {property : Node → Prop} {role : Role}

theorem Throughout.here (throughout : Throughout property node) : property node :=
  throughout node .whole

theorem Throughout.child (throughout : Throughout property node) (child : inner ∈ children node) :
    Throughout property inner :=
  fun part inside => throughout part (.inside child inside)

theorem Throughout.of (here : property node)
    (below : ∀ inner ∈ children node, Throughout property inner) : Throughout property node := by
  intro part inside
  cases inside with
  | whole => exact here
  | inside child within => exact below _ child part within

theorem WellFormed.child (wellFormed : WellFormed role node) :
    ∀ inner ∈ children node, Belongs inner := by
  induction wellFormed with
  | literal | reference => simp [children]
  | bareReturn | bareVar => simpa [children] using .absent
  | binary _ left right => simpa [children] using ⟨.inRole left, .inRole right⟩
  | unary _ part | assignment _ part | exprStmt part | printStmt part | returnStmt part
  | varDecl _ part => simpa [children] using .inRole part
  | call callee each =>
    exact List.forall_mem_cons.mpr ⟨.inRole callee, fun part listed => .inRole (each part listed)⟩
  | matching arms subject patterns bodies =>
    refine List.forall_mem_cons.mpr ⟨.inRole subject, List.forall_mem_map.mpr fun arm listed => ?_⟩
    exact .arm (patterns arm listed) (bodies arm listed)
  | ifOnly test body => simpa [children] using ⟨.inRole test, .inRole body, .absent⟩
  | ifElse test body _ other => simpa [children] using ⟨.inRole test, .inRole body, .inRole other⟩
  | whileStmt test body => simpa [children] using ⟨.inRole test, .inRole body⟩
  | block each => exact fun statement listed => .inRole (each statement listed)
  | fnDecl _ _ body => simpa [children] using .inRole (.block body)
  | statement _ ih => exact ih

theorem Belongs.child (belongs : Belongs node) : ∀ inner ∈ children node, Belongs inner := by
  cases belongs with
  | absent => simp [children]
  | arm pattern body => simpa [children] using ⟨.inRole pattern, .inRole body⟩
  | inRole wellFormed => exact wellFormed.child

theorem Belongs.below (inside : Part part node) (belongs : Belongs node) : Belongs part := by
  induction inside with
  | whole => exact belongs
  | inside child _ ih => exact ih (belongs.child _ child)

end Scriptlet.Node
