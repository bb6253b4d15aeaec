import Scriptlet.Machine.Evaluate
import Scriptlet.Proofs.Action

/-! What every run preserves, whatever tree it runs and however it ends: any relation between the
states before and after that the elementary steps of a run preserve. -/
namespace Scriptlet.Eval

open Scriptlet.Action

/-- A relation between the states before and after that every elementary step keeps. Running an
action in another scope must keep it as soon as the action does. -/
structure Kept (relation : Machine → Machine → Prop) : Prop where
  refl : ∀ machine, relation machine machine
  trans : ∀ {first second third}, relation first second → relation second third → relation first third
  newScope : ∀ enclosing, Keeps relation (onScopes (Store.newScope enclosing))
  assign : ∀ id name value, Keeps relation (onScopes (Store.assign id name value))
  define : ∀ id name value, Keeps relation (onScopes (Store.define id name value))
  print : ∀ line, Keeps relation (print line)
  note : ∀ event, Keeps relation (note event)
  inScope : ∀ {α : Type} id {action : Eval α}, Keeps relation action →
    Keeps relation (inScope id action)

/-- What an operation on the scopes leaves behind differs from what it found in the scopes alone. -/
theorem onScopes_final (operation : Store α) (machine : Machine) :
    final (onScopes operation machine) =
      { machine with forest := final (operation machine.forest) } := by
  obtain ⟨forest, current, output, events⟩ := machine
  cases outcome : operation forest <;> simp only [onScopes, outcome, final]

section

variable {relation : Machine → Machine → Prop} {evaluate : Node → Eval Value}
variable {execute : Node → Eval Flow}

theorem Kept.pure (kept : Kept relation) (value : α) : Keeps relation (pure value : Eval α) :=
  fun machine => kept.refl machine

theorem Kept.throw (kept : Kept relation) (fault : Fault) :
    Keeps relation (throw fault : Eval α) :=
  fun machine => kept.refl machine

theorem Kept.ofExcept (kept : Kept relation) (result : Except Fault α) :
    Keeps relation (ofExcept result) := by
  cases result with
  | ok value => exact kept.pure value
  | error fault => exact kept.throw fault

/-- Looking at the machine changes nothing. -/
theorem Kept.look (kept : Kept relation) {rest : Machine → Eval α}
    (after : ∀ machine, Keeps relation (rest machine)) : Keeps relation (get >>= rest) :=
  Keeps.bind kept.trans (fun machine => kept.refl machine) after

theorem Kept.bind (kept : Kept relation) {first : Eval α} {rest : α → Eval β}
    (before : Keeps relation first) (after : ∀ value, Keeps relation (rest value)) :
    Keeps relation (first >>= rest) :=
  Keeps.bind kept.trans before after

theorem catchDepth_keeps {action : Eval α} (inner : Keeps relation action) :
    Keeps relation (catchDepth action) := by
  intro machine
  have ended := inner machine
  unfold catchDepth
  cases outcome : action machine with
  | ok value after =>
    rw [outcome] at ended
    exact ended
  | error fault after =>
    rw [outcome] at ended
    cases fault <;> exact ended

theorem executeAll_keeps (kept : Kept relation) (executed : ∀ node, Keeps relation (execute node))
    (statements : List Node) : Keeps relation (executeAll execute statements) := by
  induction statements with
  | nil => exact kept.pure _
  | cons statement rest ih =>
    refine kept.bind (executed statement) fun flow => ?_
    cases flow with
    | normal => exact ih
    | returned value => exact kept.pure _

theorem evaluateAll_keeps (kept : Kept relation) (evaluated : ∀ node, Keeps relation (evaluate node))
    (found : Array Value) (nodes : List Node) : Keeps relation (evaluateAll evaluate found nodes) := by
  induction nodes generalizing found with
  | nil => exact kept.pure _
  | cons node rest ih => exact kept.bind (evaluated node) fun value => ih (found.push value)

theorem bindParams_keeps (kept : Kept relation) (id : ScopeId) (names : List String)
    (values : List Value) : Keeps relation (bindParams id names values) := by
  induction names generalizing values with
  | nil => exact kept.pure _
  | cons name names ih =>
    cases values with
    | nil => exact kept.pure _
    | cons value values => exact kept.bind (kept.define id name value) fun _ => ih values

theorem call_keeps (kept : Kept relation) (executed : ∀ node, Keeps relation (execute node))
    (function : Function) (arguments : List Value) :
    Keeps relation (call execute function arguments) := by
  unfold call
  by_cases wrong : arguments.length ≠ function.arity
  · rw [if_pos wrong]
    exact kept.throw _
  · rw [if_neg wrong]
    refine kept.bind (kept.newScope _) fun scope => ?_
    refine kept.bind (bindParams_keeps kept scope _ _) fun _ => kept.bind (kept.note _) fun _ => ?_
    split
    · refine kept.bind ?_ fun flow => ?_
      · exact catchDepth_keeps (kept.inScope scope (executeAll_keeps kept executed _))
      · cases flow <;> exact kept.pure _
    · exact kept.throw _

theorem matchArms_keeps (kept : Kept relation) (evaluated : ∀ node, Keeps relation (evaluate node))
    (subject : Value) (arms : List Node) : Keeps relation (matchArms evaluate subject arms) := by
  induction arms with
  | nil => exact kept.throw _
  | cons arm rest ih =>
    cases arm with
    | matchArm line pattern body =>
      refine kept.bind (evaluated pattern) fun value => ?_
      split
      · exact evaluated body
      · exact ih
    | _ => exact kept.throw _

theorem repeatWhile_keeps (kept : Kept relation) (evaluated : ∀ node, Keeps relation (evaluate node))
    (executed : ∀ node, Keeps relation (execute node)) (condition body : Node) (turns : Nat) :
    Keeps relation (repeatWhile evaluate execute condition body turns) := by
  induction turns with
  | zero => exact kept.throw _
  | succ turns ih =>
    refine kept.bind (evaluated condition) fun value => ?_
    split
    · refine kept.bind (executed body) fun flow => ?_
      cases flow with
      | normal => exact ih
      | returned value => exact kept.pure _
    · exact kept.pure _

theorem evaluateNode_keeps (kept : Kept relation) (evaluated : ∀ node, Keeps relation (evaluate node))
    (executed : ∀ node, Keeps relation (execute node)) (node : Node) :
    Keeps relation (evaluateNode evaluate execute node) := by
  cases node with
  | literal line value => exact kept.pure _
  | binary line operator left right =>
    exact kept.bind (evaluated left) fun _ => kept.bind (evaluated right) fun _ => kept.ofExcept _
  | unary line operator operand => exact kept.bind (evaluated operand) fun _ => kept.ofExcept _
  | reference line name => exact kept.look fun _ => kept.ofExcept _
  | assignment line name value =>
    exact kept.bind (evaluated value) fun _ => kept.look fun _ => kept.assign _ _ _
  | call line callee arguments =>
    refine kept.bind (evaluated callee) fun value => ?_
    cases value with
    | scalar other => exact kept.throw _
    | function function =>
      exact kept.bind (evaluateAll_keeps kept evaluated _ _) fun _ => call_keeps kept executed _ _
  | matching line subject arms =>
    exact kept.bind (evaluated subject) fun _ => matchArms_keeps kept evaluated _ _
  | _ => exact kept.throw _

theorem executeNode_keeps (kept : Kept relation) (evaluated : ∀ node, Keeps relation (evaluate node))
    (executed : ∀ node, Keeps relation (execute node)) (turns : Nat) (node : Node) :
    Keeps relation (executeNode evaluate execute turns node) := by
  cases node with
  | exprStmt line expression => exact kept.bind (evaluated expression) fun _ => kept.pure _
  | varDecl line name initializer =>
    have defined : ∀ value, Keeps relation (do define name value; return .normal : Eval Flow) :=
      fun value => kept.bind (kept.look fun _ => kept.define _ _ _) fun _ => kept.pure _
    rw [executeNode]
    split
    · exact kept.bind (kept.pure _) defined
    · exact kept.bind (evaluated initializer) defined
  | printStmt line expression =>
    exact kept.bind (evaluated expression) fun _ => kept.bind (kept.print _) fun _ => kept.pure _
  | ifStmt line condition thenBranch elseBranch =>
    refine kept.bind (evaluated condition) fun value => ?_
    split
    · exact executed thenBranch
    · split
      · exact kept.pure _
      · exact executed elseBranch
  | whileStmt line condition body => exact repeatWhile_keeps kept evaluated executed condition body turns
  | block line statements =>
    refine kept.bind (kept.look fun _ => kept.newScope _) fun scope => ?_
    exact kept.inScope scope (executeAll_keeps kept executed statements)
  | fnDecl line name params body =>
    refine kept.bind (kept.look fun _ => kept.newScope _) fun scope => ?_
    exact kept.bind (kept.look fun _ => kept.define _ _ _) fun _ => kept.pure _
  | returnStmt line value =>
    rw [executeNode]
    split
    · exact kept.pure _
    · exact kept.bind (evaluated value) fun _ => kept.pure _
  | _ => exact kept.throw _

end

/-- What the elementary steps keep, evaluation and execution keep at every depth. -/
theorem within_keeps (kept : Kept relation) (turns depth : Nat) :
    (∀ node, Keeps relation (evaluateWithin turns depth node)) ∧
      (∀ node, Keeps relation (executeWithin turns depth node)) := by
  induction depth with
  | zero =>
    constructor
    · intro node
      exact kept.throw _
    · intro node
      exact kept.throw _
  | succ depth ih =>
    obtain ⟨evaluated, executed⟩ := ih
    exact ⟨evaluateNode_keeps kept evaluated executed, executeNode_keeps kept evaluated executed turns⟩

theorem evaluate_keeps (kept : Kept relation) (limits : Limits) (node : Node) :
    Keeps relation (evaluate limits node) :=
  (within_keeps kept limits.turns limits.depth).1 node

theorem execute_keeps (kept : Kept relation) (limits : Limits) (node : Node) :
    Keeps relation (execute limits node) :=
  (within_keeps kept limits.turns limits.depth).2 node

theorem apply_keeps (kept : Kept relation) (limits : Limits) (callee : Value)
    (arguments : List Value) : Keeps relation (apply limits callee arguments) := by
  cases callee with
  | scalar value => exact kept.throw _
  | function function => exact call_keeps kept (execute_keeps kept limits) function arguments

theorem interpret_keeps (kept : Kept relation) (limits : Limits) (program : List Node) :
    Keeps relation (interpret limits program) := by
  induction program with
  | nil => exact kept.pure _
  | cons statement rest ih =>
    refine kept.bind (catchDepth_keeps (execute_keeps kept limits statement)) fun flow => ?_
    cases flow with
    | normal => exact ih
    | returned value => exact kept.note _

end Scriptlet.Eval
