import Scriptlet.Machine.Evaluate
import Scriptlet.Proofs.Action
import Scriptlet.Proofs.Machine.Lines

/-! A run does not look at the lines of its tree, nor at what was printed and noted before it. So it
does the same on a machine in which these differ. -/
namespace Scriptlet

open Scriptlet.Action Eval

/-- Another form of a machine: the lines of all function bodies are changed, and there was some output
and some events before. -/
structure Recast where
  change : Int → Int
  output : Array String
  events : Array Event

namespace Recast

variable (recast : Recast)

def machine (machine : Machine) : Machine where
  forest := Forest.mapLines recast.change machine.forest
  current := machine.current
  output := recast.output ++ machine.output
  events := recast.events ++ machine.events.map (·.mapLines recast.change)

def outcome (convert : α → β) : EStateM.Result Fault Machine α → EStateM.Result Fault Machine β
  | .ok value after => .ok (convert value) (recast.machine after)
  | .error fault after => .error (fault.mapLines recast.change) (recast.machine after)

/-- The second action does on the other form of a machine what the first one does on the machine. -/
def Carries (convert : α → β) (first : Eval α) (second : Eval β) : Prop :=
  ∀ machine, second (recast.machine machine) = recast.outcome convert (first machine)

section

variable {recast} {convert : α → β} {convert' : γ → δ} {change : Int → Int}

theorem Carries.pure {value : α} {value' : β} (same : value' = convert value) :
    recast.Carries convert (pure value) (pure value') := by
  intro machine
  rw [same]
  rfl

theorem Carries.throw {fault fault' : Fault} (same : fault' = fault.mapLines recast.change) :
    recast.Carries convert (throw fault) (throw fault') := by
  intro machine
  rw [same]
  rfl

theorem Carries.bind {first : Eval α} {second : Eval β} {rest : α → Eval γ} {rest' : β → Eval δ}
    (begins : recast.Carries convert first second)
    (goes : ∀ value, recast.Carries convert' (rest value) (rest' (convert value))) :
    recast.Carries convert' (first >>= rest) (second >>= rest') := by
  intro machine
  rw [bind_run, bind_run, begins machine]
  cases first machine with
  | ok value after => exact goes value after
  | error fault after => rfl

/-- Looking at the machine. -/
theorem Carries.look {rest : Machine → Eval γ} {rest' : Machine → Eval δ}
    (goes : ∀ machine, recast.Carries convert' (rest machine) (rest' (recast.machine machine))) :
    recast.Carries convert' (get >>= rest) (get >>= rest') :=
  fun machine => goes machine machine

theorem Carries.ofExcept {computed computed' : Except Fault Value}
    (same : computed' = Value.relined recast.change computed) :
    recast.Carries (·.mapLines recast.change) (Eval.ofExcept computed) (Eval.ofExcept computed') := by
  rw [same]
  cases computed with
  | ok value => exact .pure rfl
  | error fault => exact .throw rfl

theorem newScope_carries (enclosing : Option ScopeId) :
    recast.Carries id (onScopes (Store.newScope enclosing)) (onScopes (Store.newScope enclosing)) := by
  intro machine
  have size : (Forest.mapLines recast.change machine.forest).size = machine.forest.size :=
    Array.size_map
  simp only [Recast.machine, outcome, onScopes, Store.newScope, size, Forest.push_mapLines, id_eq]

theorem innerScope_carries : recast.Carries id innerScope innerScope :=
  .look fun _ => newScope_carries _

theorem lookup_carries (name : String) :
    recast.Carries (·.mapLines recast.change) (lookup name) (lookup name) :=
  .look fun machine => .ofExcept (Forest.get_mapLines machine.forest machine.current name)

theorem assign_carries (name : String) (value : Value) :
    recast.Carries (·.mapLines recast.change) (assign name value)
      (assign name (value.mapLines recast.change)) := by
  refine .look fun looked machine => ?_
  simp only [Recast.machine, onScopes, Store.assign, Forest.resolve_mapLines]
  cases machine.forest.resolve looked.current name with
  | none => rfl
  | some home =>
    dsimp only
    rw [Forest.modify_mapLines _ _ fun scope => Scope.rebind_mapLines scope name value]
    rfl

theorem storeDefine_carries (scope : ScopeId) (name : String) (value : Value) :
    recast.Carries id (onScopes (Store.define scope name value))
      (onScopes (Store.define scope name (value.mapLines recast.change))) := by
  intro machine
  simp only [Recast.machine, onScopes, Store.define, Forest.isDefined_mapLines]
  cases machine.forest.isDefined scope name with
  | true => rfl
  | false =>
    simp only [Bool.false_eq_true, ↓reduceIte]
    rw [Forest.modify_mapLines _ _ fun scope => Scope.bind_mapLines scope name value]
    rfl

theorem define_carries (name : String) (value : Value) :
    recast.Carries id (define name value) (define name (value.mapLines recast.change)) :=
  .look fun machine => storeDefine_carries machine.current name value

theorem print_carries (line : String) : recast.Carries id (print line) (print line) := by
  intro machine
  have printed : print line (recast.machine machine) = .ok () { recast.machine machine with
      output := (recast.output ++ machine.output).push line } := rfl
  rw [printed, ← Array.append_push]
  rfl

theorem note_carries (event : Event) :
    recast.Carries id (note event) (note (event.mapLines recast.change)) := by
  intro machine
  have noted : note (event.mapLines recast.change) (recast.machine machine) =
      .ok () { recast.machine machine with
        events := (recast.events ++ machine.events.map (·.mapLines recast.change)).push
          (event.mapLines recast.change) } := rfl
  rw [noted, ← Array.append_push, ← Array.map_push]
  rfl

theorem inScope_carries (scope : ScopeId) {first : Eval α} {second : Eval β}
    (inner : recast.Carries convert first second) :
    recast.Carries convert (inScope scope first) (inScope scope second) := by
  intro machine
  have entered := inner { machine with current := scope }
  have same : recast.machine { machine with current := scope } =
      { recast.machine machine with current := scope } := rfl
  rw [same] at entered
  unfold inScope
  dsimp only
  rw [entered]
  cases first { machine with current := scope } <;> rfl

theorem catchDepth_carries {first : Eval α} {second : Eval β}
    (inner : recast.Carries convert first second) :
    recast.Carries convert (catchDepth first) (catchDepth second) := by
  intro machine
  unfold catchDepth
  rw [inner machine]
  cases first machine with
  | ok value after => rfl
  | error fault after => cases fault <;> rfl

/-- Evaluation does the same with other lines. -/
def Evaluates (recast : Recast) (evaluate : Node → Eval Value) : Prop :=
  ∀ node, recast.Carries (·.mapLines recast.change) (evaluate node)
    (evaluate (node.mapLines recast.change))

def Executes (recast : Recast) (execute : Node → Eval Flow) : Prop :=
  ∀ node, recast.Carries (·.mapLines recast.change) (execute node)
    (execute (node.mapLines recast.change))

variable {evaluate : Node → Eval Value} {execute : Node → Eval Flow}

theorem executeAll_carries (executed : recast.Executes execute) (statements : List Node) :
    recast.Carries (·.mapLines recast.change) (executeAll execute statements)
      (executeAll execute (statements.map (·.mapLines recast.change))) := by
  induction statements with
  | nil => exact .pure rfl
  | cons statement rest ih =>
    refine .bind (executed statement) fun flow => ?_
    cases flow with
    | normal => exact ih
    | returned value => exact .pure rfl

theorem evaluateAll_carries (evaluated : recast.Evaluates evaluate) (found : Array Value)
    (nodes : List Node) :
    recast.Carries (Array.map (·.mapLines recast.change)) (evaluateAll evaluate found nodes)
      (evaluateAll evaluate (found.map (·.mapLines recast.change))
        (nodes.map (·.mapLines recast.change))) := by
  induction nodes generalizing found with
  | nil => exact .pure rfl
  | cons node rest ih =>
    refine .bind (evaluated node) fun value => ?_
    rw [← Array.map_push]
    exact ih (found.push value)

theorem bindParams_carries (scope : ScopeId) (names : List String) (values : List Value) :
    recast.Carries id (bindParams scope names values)
      (bindParams scope names (values.map (·.mapLines recast.change))) := by
  induction names generalizing values with
  | nil => exact .pure rfl
  | cons name names ih =>
    cases values with
    | nil => exact .pure rfl
    | cons value values => exact .bind (storeDefine_carries scope name value) fun _ => ih values

theorem call_carries (executed : recast.Executes execute) (function : Function)
    (arguments : List Value) :
    recast.Carries (·.mapLines recast.change) (call execute function arguments)
      (call execute (function.mapLines recast.change)
        (arguments.map (·.mapLines recast.change))) := by
  unfold call
  rw [List.length_map, Function.arity_mapLines]
  by_cases wrong : arguments.length ≠ function.arity
  · rw [if_pos wrong, if_pos wrong]
    exact .throw rfl
  · rw [if_neg wrong, if_neg wrong]
    refine .bind (newScope_carries _) fun scope => .bind (bindParams_carries scope _ _) fun _ =>
      .bind (note_carries (.called function arguments.length)) fun _ => ?_
    obtain ⟨name, params, body, closure⟩ := function
    cases body with
    | block line statements =>
      simp only [Function.mapLines, Node.mapLines, Node.mapLinesAll_eq]
      refine .bind (catchDepth_carries (inScope_carries scope (executeAll_carries executed _)))
        fun flow => ?_
      cases flow <;> exact .pure rfl
    | _ => exact .throw rfl

theorem matchArms_carries (evaluated : recast.Evaluates evaluate) (subject : Value) (arms : List Node) :
    recast.Carries (·.mapLines recast.change) (matchArms evaluate subject arms)
      (matchArms evaluate (subject.mapLines recast.change)
        (arms.map (·.mapLines recast.change))) := by
  induction arms with
  | nil => exact .throw rfl
  | cons arm rest ih =>
    cases arm with
    | matchArm line pattern body =>
      refine .bind (evaluated pattern) fun value => ?_
      rw [Value.equal_mapLines]
      split
      · exact evaluated body
      · exact ih
    | _ => exact .throw rfl

theorem repeatWhile_carries (evaluated : recast.Evaluates evaluate) (executed : recast.Executes execute)
    (condition body : Node) (turns : Nat) :
    recast.Carries (·.mapLines recast.change) (repeatWhile evaluate execute condition body turns)
      (repeatWhile evaluate execute (condition.mapLines recast.change)
        (body.mapLines recast.change) turns) := by
  induction turns with
  | zero => exact .throw rfl
  | succ turns ih =>
    refine .bind (evaluated condition) fun value => ?_
    rw [Value.truthy_mapLines]
    split
    · refine .bind (executed body) fun flow => ?_
      cases flow with
      | normal => exact ih
      | returned value => exact .pure rfl
    · exact .pure rfl

theorem evaluateNode_carries (evaluated : recast.Evaluates evaluate)
    (executed : recast.Executes execute) : recast.Evaluates (evaluateNode evaluate execute) := by
  intro node
  cases node with
  | literal line value => exact .pure rfl
  | binary line operator left right =>
    exact .bind (evaluated left) fun first => .bind (evaluated right) fun second =>
      .ofExcept (Value.binary_mapLines operator first second)
  | unary line operator operand =>
    exact .bind (evaluated operand) fun value => .ofExcept (Value.unary_mapLines operator value)
  | reference line name => exact lookup_carries name
  | assignment line name value => exact .bind (evaluated value) fun result => assign_carries name result
  | call line callee arguments =>
    simp only [Node.mapLines, Node.mapLinesAll_eq]
    refine .bind (evaluated callee) fun value => ?_
    cases value with
    | scalar other => exact .throw rfl
    | function function =>
      have found := evaluateAll_carries evaluated #[] arguments
      rw [Array.map_empty] at found
      refine .bind found fun values => ?_
      rw [Array.toList_map]
      exact call_carries executed function values.toList
  | matching line subject arms =>
    simp only [Node.mapLines, Node.mapLinesAll_eq]
    exact .bind (evaluated subject) fun value => matchArms_carries evaluated value arms
  | _ => exact .throw rfl

theorem executeNode_carries (evaluated : recast.Evaluates evaluate)
    (executed : recast.Executes execute) (turns : Nat) :
    recast.Executes (executeNode evaluate execute turns) := by
  intro node
  cases node with
  | exprStmt line expression => exact .bind (evaluated expression) fun _ => .pure rfl
  | varDecl line name initializer =>
    have defined : ∀ value, recast.Carries (·.mapLines recast.change)
        (do define name value; return .normal : Eval Flow)
        (do define name (value.mapLines recast.change); return .normal : Eval Flow) :=
      fun value => .bind (define_carries name value) fun _ => .pure rfl
    rw [executeNode, Node.mapLines, executeNode, Node.isAbsent_mapLines]
    split
    · exact defined .null
    · exact .bind (evaluated initializer) defined
  | printStmt line expression =>
    refine .bind (evaluated expression) fun value => ?_
    rw [Value.display_mapLines]
    exact .bind (print_carries _) fun _ => .pure rfl
  | ifStmt line condition thenBranch elseBranch =>
    refine .bind (evaluated condition) fun value => ?_
    rw [Value.truthy_mapLines, Node.isAbsent_mapLines]
    split
    · exact executed thenBranch
    · split
      · exact .pure rfl
      · exact executed elseBranch
  | whileStmt line condition body => exact repeatWhile_carries evaluated executed condition body turns
  | block line statements =>
    simp only [Node.mapLines, Node.mapLinesAll_eq]
    exact .bind innerScope_carries fun scope => inScope_carries scope (executeAll_carries executed _)
  | fnDecl line name params body =>
    exact .bind innerScope_carries fun closure =>
      .bind (define_carries name (.function ⟨name, params, body, closure⟩)) fun _ => .pure rfl
  | returnStmt line value =>
    rw [executeNode, Node.mapLines, executeNode, Node.isAbsent_mapLines]
    split
    · exact .pure rfl
    · exact .bind (evaluated value) fun _ => .pure rfl
  | _ => exact .throw rfl

theorem within_carries (recast : Recast) (turns depth : Nat) :
    recast.Evaluates (evaluateWithin turns depth) ∧ recast.Executes (executeWithin turns depth) := by
  induction depth with
  | zero => exact ⟨fun _ => .throw rfl, fun _ => .throw rfl⟩
  | succ depth ih =>
    obtain ⟨evaluated, executed⟩ := ih
    exact ⟨evaluateNode_carries evaluated executed, executeNode_carries evaluated executed turns⟩

theorem execute_carries (recast : Recast) (limits : Limits) : recast.Executes (Eval.execute limits) :=
  (within_carries recast limits.turns limits.depth).2

/-- A program with other lines does the same on the other form of a machine. -/
theorem interpret_carries (recast : Recast) (limits : Limits) (program : List Node) :
    recast.Carries id (interpret limits program)
      (interpret limits (program.map (·.mapLines recast.change))) := by
  induction program with
  | nil => exact .pure rfl
  | cons statement rest ih =>
    refine .bind (catchDepth_carries (execute_carries recast limits statement)) fun flow => ?_
    cases flow with
    | normal => exact ih
    | returned value => exact note_carries (.discarded value)

end

end Recast

end Scriptlet
