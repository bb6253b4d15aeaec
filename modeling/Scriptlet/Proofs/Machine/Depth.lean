import Scriptlet.Proofs.Machine.Preservation

/-! A run that reaches its depth limit is a run under a higher limit that was cut off. Until then both
do the same, so the one under the higher limit prints all that the other one has printed. -/
namespace Scriptlet

open Scriptlet.Action

/-- What the first machine has printed, the second one has printed too, before anything else. -/
def Machine.Prints (before after : Machine) : Prop :=
  before.output.toList <+: after.output.toList

/-- The run was cut off by the depth limit. -/
def Fault.IsCut (fault : Fault) : Prop :=
  fault = .depthExceeded ∨ fault = .stackOverflow

namespace Eval

theorem onScopes_prints (operation : Store α) : Keeps Machine.Prints (onScopes operation) := by
  intro machine
  rw [onScopes_final]
  exact List.prefix_refl _

/-- Nothing that was printed is taken back. -/
theorem prints_kept : Kept Machine.Prints where
  refl _ := List.prefix_refl _
  trans := List.IsPrefix.trans
  newScope _ := onScopes_prints _
  assign _ _ _ := onScopes_prints _
  define _ _ _ := onScopes_prints _
  print line machine := by
    have printed : (final (print line machine)).output = machine.output.push line := rfl
    rw [Machine.Prints, printed, Array.toList_push]
    exact List.prefix_append _ _
  note _ _ := List.prefix_refl _
  inScope id action inner machine := by
    have ended := inner { machine with current := id }
    unfold inScope
    cases outcome : action { machine with current := id } with
    | ok value after =>
      rw [outcome] at ended
      exact ended
    | error fault after =>
      rw [outcome] at ended
      exact ended

/-- The first action does what the second one does unless it is cut off, and what it has printed by
then, the second one prints as well. -/
structure Truncates (short long : Eval α) : Prop where
  prints : Keeps Machine.Prints long
  agrees : ∀ machine, short machine = long machine ∨
    ∃ fault reached, fault.IsCut ∧ short machine = .error fault reached ∧
      reached.Prints (final (long machine))

section

variable {short long : Eval α} {evaluate other : Node → Eval Value} {execute another : Node → Eval Flow}

theorem Truncates.refl {action : Eval α} (prints : Keeps Machine.Prints action) :
    Truncates action action :=
  ⟨prints, fun _ => .inl rfl⟩

theorem Truncates.bind {shortRest longRest : α → Eval β} (first : Truncates short long)
    (rest : ∀ value, Truncates (shortRest value) (longRest value)) :
    Truncates (short >>= shortRest) (long >>= longRest) := by
  have further := fun value => (rest value).prints
  refine ⟨prints_kept.bind first.prints further, fun machine => ?_⟩
  rw [bind_run, bind_run]
  rcases first.agrees machine with same | ⟨fault, reached, isCut, failed, printed⟩
  · rw [same]
    cases long machine with
    | ok value after => exact (rest value).agrees after
    | error fault after => exact .inl rfl
  · right
    rw [failed]
    refine ⟨fault, reached, isCut, rfl, ?_⟩
    -- the second action goes on, and takes back nothing
    cases outcome : long machine with
    | ok value after =>
      rw [outcome] at printed
      exact prints_kept.trans printed (further value after)
    | error fault after =>
      rw [outcome] at printed
      exact printed

/-- At the limit itself, nothing is printed at all. -/
theorem Truncates.stopped (prints : Keeps Machine.Prints long) :
    Truncates (throw .depthExceeded) long :=
  ⟨prints, fun machine => .inr ⟨_, machine, .inl rfl, rfl, prints machine⟩⟩

theorem inScope_truncates (id : ScopeId) (inner : Truncates short long) :
    Truncates (inScope id short) (inScope id long) := by
  refine ⟨prints_kept.inScope id inner.prints, fun machine => ?_⟩
  unfold inScope
  dsimp only
  rcases inner.agrees { machine with current := id } with same | ⟨fault, reached, isCut, failed, printed⟩
  · exact .inl (by rw [same])
  · right
    rw [failed]
    refine ⟨fault, _, isCut, rfl, ?_⟩
    generalize long { machine with current := id } = outcome at printed
    cases outcome <;> exact printed

/-- A run that is cut off stays so: the fault only gets another name. -/
theorem catchDepth_truncates (inner : Truncates short long) :
    Truncates (catchDepth short) (catchDepth long) := by
  refine ⟨catchDepth_keeps inner.prints, fun machine => ?_⟩
  have same_final : final (catchDepth long machine) = final (long machine) := by
    unfold catchDepth
    cases long machine with
    | ok value after => rfl
    | error fault after => cases fault <;> rfl
  rcases inner.agrees machine with same | ⟨fault, reached, isCut, failed, printed⟩
  · exact .inl (by rw [catchDepth, catchDepth, same])
  · right
    rw [same_final]
    refine ⟨.stackOverflow, reached, .inr rfl, ?_, printed⟩
    rw [catchDepth, failed]
    rcases isCut with rfl | rfl <;> rfl

theorem executeAll_truncates (executed : ∀ node, Truncates (execute node) (another node))
    (statements : List Node) :
    Truncates (executeAll execute statements) (executeAll another statements) := by
  induction statements with
  | nil => exact .refl (prints_kept.pure _)
  | cons statement rest ih =>
    refine .bind (executed statement) fun flow => ?_
    cases flow with
    | normal => exact ih
    | returned value => exact .refl (prints_kept.pure _)

theorem evaluateAll_truncates (evaluated : ∀ node, Truncates (evaluate node) (other node))
    (found : Array Value) (nodes : List Node) :
    Truncates (evaluateAll evaluate found nodes) (evaluateAll other found nodes) := by
  induction nodes generalizing found with
  | nil => exact .refl (prints_kept.pure _)
  | cons node rest ih => exact .bind (evaluated node) fun value => ih (found.push value)

theorem call_truncates (executed : ∀ node, Truncates (execute node) (another node))
    (function : Function) (arguments : List Value) :
    Truncates (call execute function arguments) (call another function arguments) := by
  unfold call
  by_cases wrong : arguments.length ≠ function.arity
  · rw [if_pos wrong, if_pos wrong]
    exact .refl (prints_kept.throw _)
  · rw [if_neg wrong, if_neg wrong]
    refine .bind (.refl (prints_kept.newScope _)) fun scope => ?_
    refine .bind (.refl (bindParams_keeps prints_kept scope _ _)) fun _ =>
      .bind (.refl (prints_kept.note _)) fun _ => ?_
    split
    · refine .bind (catchDepth_truncates ?_) fun flow => ?_
      · exact inScope_truncates scope (executeAll_truncates executed _)
      · cases flow <;> exact .refl (prints_kept.pure _)
    · exact .refl (prints_kept.throw _)

theorem matchArms_truncates (evaluated : ∀ node, Truncates (evaluate node) (other node))
    (subject : Value) (arms : List Node) :
    Truncates (matchArms evaluate subject arms) (matchArms other subject arms) := by
  induction arms with
  | nil => exact .refl (prints_kept.throw _)
  | cons arm rest ih =>
    cases arm with
    | matchArm line pattern body =>
      refine .bind (evaluated pattern) fun value => ?_
      split
      · exact evaluated body
      · exact ih
    | _ => exact .refl (prints_kept.throw _)

theorem repeatWhile_truncates (evaluated : ∀ node, Truncates (evaluate node) (other node))
    (executed : ∀ node, Truncates (execute node) (another node)) (condition body : Node) (turns : Nat) :
    Truncates (repeatWhile evaluate execute condition body turns)
      (repeatWhile other another condition body turns) := by
  induction turns with
  | zero => exact .refl (prints_kept.throw _)
  | succ turns ih =>
    refine .bind (evaluated condition) fun value => ?_
    split
    · refine .bind (executed body) fun flow => ?_
      cases flow with
      | normal => exact ih
      | returned value => exact .refl (prints_kept.pure _)
    · exact .refl (prints_kept.pure _)

theorem evaluateNode_truncates (evaluated : ∀ node, Truncates (evaluate node) (other node))
    (executed : ∀ node, Truncates (execute node) (another node)) (node : Node) :
    Truncates (evaluateNode evaluate execute node) (evaluateNode other another node) := by
  cases node with
  | literal line value => exact .refl (prints_kept.pure _)
  | binary line operator left right =>
    exact .bind (evaluated left) fun _ => .bind (evaluated right) fun _ =>
      .refl (prints_kept.ofExcept _)
  | unary line operator operand =>
    exact .bind (evaluated operand) fun _ => .refl (prints_kept.ofExcept _)
  | reference line name => exact .refl (prints_kept.look fun _ => prints_kept.ofExcept _)
  | assignment line name value =>
    exact .bind (evaluated value) fun _ => .refl (prints_kept.look fun _ => prints_kept.assign _ _ _)
  | call line callee arguments =>
    refine .bind (evaluated callee) fun value => ?_
    cases value with
    | scalar other => exact .refl (prints_kept.throw _)
    | function function =>
      exact .bind (evaluateAll_truncates evaluated _ _) fun _ => call_truncates executed _ _
  | matching line subject arms =>
    exact .bind (evaluated subject) fun _ => matchArms_truncates evaluated _ _
  | _ => exact .refl (prints_kept.throw _)

theorem executeNode_truncates (evaluated : ∀ node, Truncates (evaluate node) (other node))
    (executed : ∀ node, Truncates (execute node) (another node)) (turns : Nat) (node : Node) :
    Truncates (executeNode evaluate execute turns node) (executeNode other another turns node) := by
  have defined (name : String) (value : Value) :
      Truncates (do define name value; return .normal : Eval Flow)
        (do define name value; return .normal : Eval Flow) :=
    .refl (prints_kept.bind (prints_kept.look fun _ => prints_kept.define _ _ _) fun _ =>
      prints_kept.pure _)
  have opened : Truncates innerScope innerScope :=
    .refl (prints_kept.look fun _ => prints_kept.newScope _)
  cases node with
  | exprStmt line expression =>
    exact .bind (evaluated expression) fun _ => .refl (prints_kept.pure _)
  | varDecl line name initializer =>
    rw [executeNode, executeNode]
    split
    · exact defined name .null
    · exact .bind (evaluated initializer) (defined name)
  | printStmt line expression =>
    exact .bind (evaluated expression) fun _ =>
      .refl (prints_kept.bind (prints_kept.print _) fun _ => prints_kept.pure _)
  | ifStmt line condition thenBranch elseBranch =>
    refine .bind (evaluated condition) fun value => ?_
    split
    · exact executed thenBranch
    · split
      · exact .refl (prints_kept.pure _)
      · exact executed elseBranch
  | whileStmt line condition body => exact repeatWhile_truncates evaluated executed condition body turns
  | block line statements =>
    exact .bind opened fun scope => inScope_truncates scope (executeAll_truncates executed statements)
  | fnDecl line name params body => exact .bind opened fun closure => defined name _
  | returnStmt line value =>
    rw [executeNode, executeNode]
    split
    · exact .refl (prints_kept.pure _)
    · exact .bind (evaluated value) fun _ => .refl (prints_kept.pure _)
  | _ => exact .refl (prints_kept.throw _)

end

/-- Evaluation and execution under a limit are those under any higher limit, cut off. -/
theorem within_truncates (turns : Nat) (more : depth ≤ deeper) :
    (∀ node, Truncates (evaluateWithin turns depth node) (evaluateWithin turns deeper node)) ∧
      (∀ node, Truncates (executeWithin turns depth node) (executeWithin turns deeper node)) := by
  induction depth generalizing deeper with
  | zero =>
    obtain ⟨evaluated, executed⟩ := within_keeps prints_kept turns deeper
    constructor
    · exact fun node => .stopped (evaluated node)
    · exact fun node => .stopped (executed node)
  | succ depth ih =>
    cases deeper with
    | zero => exact absurd more (Nat.not_succ_le_zero depth)
    | succ deeper =>
      obtain ⟨evaluated, executed⟩ := ih (Nat.le_of_succ_le_succ more)
      constructor
      · exact evaluateNode_truncates evaluated executed
      · exact executeNode_truncates evaluated executed turns

theorem interpret_truncates {limits : Limits} (more : limits.depth ≤ deeper) (program : List Node) :
    Truncates (interpret limits program) (interpret { limits with depth := deeper } program) := by
  induction program with
  | nil => exact .refl (prints_kept.pure _)
  | cons statement rest ih =>
    refine .bind (catchDepth_truncates ((within_truncates limits.turns more).2 statement)) fun flow => ?_
    cases flow with
    | normal => exact ih
    | returned value => exact .refl (prints_kept.note _)

/-- A program does not end with the fault of the limit, but with that of the language. -/
theorem interpret_settles (limits : Limits) (program : List Node) (machine after : Machine) :
    interpret limits program machine ≠ .error .depthExceeded after := by
  induction program generalizing machine with
  | nil => simp [interpret, pure_run]
  | cons statement rest ih =>
    rw [interpret, bind_run, catchDepth]
    cases execute limits statement machine with
    | ok flow middle =>
      cases flow with
      | normal => exact ih middle
      | returned value =>
        have noted : note (.discarded value) middle =
            .ok () { middle with events := middle.events.push (.discarded value) } := rfl
        simp [noted]
    | error fault middle => cases fault <;> simp

end Scriptlet.Eval
