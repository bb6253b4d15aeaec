import Scriptlet.Machine.Evaluate
import Scriptlet.Proofs.Action
import Scriptlet.Proofs.Node.WellFormed
import Scriptlet.Proofs.Scope.View

/-! Well-formed programs run into no failure but those of the language, and all that they ever store
in a scope are values of the language. -/
namespace Scriptlet

open Scriptlet.Action Node

def Node.isBlock : Node → Bool
  | .block .. => true
  | _ => false

/-- Null, a boolean, a number, or a function whose body is a block. -/
def Value.isRuntime : Value → Bool
  | .scalar value =>
    match value with
    | .null | .bool _ | .number _ => true
    | .integer _ | .text _ => false
  | .function callee => callee.body.isBlock

theorem Value.isRuntime_of_isSource (source : value.isSource) : (Value.scalar value).isRuntime := by
  cases value with
  | integer _ | text _ => cases source
  | _ => rfl

/-- All values in all scopes are values of the language. -/
def Machine.storesRuntime (machine : Machine) : Bool :=
  machine.forest.all fun scope => scope.bindings.all fun binding => binding.2.isRuntime

/-- The failures of the language itself. -/
def Fault.isLanguage : Fault → Bool
  | .undefined _ | .duplicate _ | .notNumber .. | .notCallable _ | .wrongArity .. | .divisionByZero _
  | .stackOverflow | .noMatch _ => true
  | _ => false

/-- The values that well-formed programs compute: the bodies of functions are well formed as well. -/
inductive Value.Sound : Value → Prop where
  | scalar (plain : (Value.scalar value).isRuntime) : Sound (.scalar value)
  | function {closure : ScopeId}
      (each : ∀ statement ∈ statements, WellFormed .declaration statement) :
      Sound (.function ⟨name, params, .block line statements, closure⟩)

theorem Value.Sound.isRuntime (sound : Value.Sound value) : value.isRuntime := by
  cases sound with
  | scalar plain => exact plain
  | function => rfl

/-- How well-formed statements end. -/
inductive Flow.Sound : Flow → Prop where
  | normal : Sound .normal
  | returned (sound : Value.Sound value) : Sound (.returned value)

def Scope.Sound (scope : Scope) : Prop :=
  ∀ binding ∈ scope.bindings, binding.2.Sound

def Machine.Sound (machine : Machine) : Prop :=
  ∀ scope ∈ machine.forest, scope.Sound

theorem Machine.Sound.storesRuntime {machine : Machine} (sound : machine.Sound) :
    machine.storesRuntime := by
  unfold Machine.storesRuntime
  simp only [Array.all_eq_true_iff_forall_mem, List.all_eq_true]
  intro scope inForest binding listed
  exact (sound scope inForest binding listed).isRuntime

theorem Machine.Sound.fresh : Machine.fresh.Sound := by
  intro scope member binding listed
  cases Array.mem_singleton.mp member
  cases listed

namespace Scope

/-- What is right for all bindings and for a new one is right for all bindings then. -/
theorem forall_bind {scope : Scope} {holds : String × Value → Prop}
    (each : ∀ binding ∈ scope.bindings, holds binding) (added : holds (name, value)) :
    ∀ binding ∈ (scope.bind name value).bindings, holds binding := by
  intro binding listed
  rcases List.mem_cons.mp listed with rfl | old
  · exact added
  · exact each binding old

theorem forall_rebind {scope : Scope} {holds : String × Value → Prop}
    (each : ∀ binding ∈ scope.bindings, holds binding) (added : holds (name, value)) :
    ∀ binding ∈ (scope.rebind name value).bindings, holds binding := by
  intro binding listed
  obtain ⟨old, inScope, rfl⟩ := List.mem_map.mp listed
  split
  · exact added
  · exact each old inScope

theorem Sound.bind {scope : Scope} (sound : scope.Sound) (name : String) (added : Value.Sound value) :
    (scope.bind name value).Sound :=
  scope.forall_bind sound added

theorem Sound.rebind {scope : Scope} (sound : scope.Sound) (name : String)
    (added : Value.Sound value) : (scope.rebind name value).Sound :=
  scope.forall_rebind sound added

end Scope

namespace Eval

/-- What is asked of evaluations and executions. -/
def running : Contract Fault Machine where
  holds := Machine.Sound
  cut _ := False
  allowed fault := fault.isLanguage ∨ fault = .unfinished ∨ fault = .depthExceeded

/-- What is asked of whole programs and calls, where the depth limit is a failure of the program. -/
def settled : Contract Fault Machine where
  holds := Machine.Sound
  cut _ := False
  allowed fault := fault.isLanguage ∨ fault = .unfinished

theorem newScope_meets (enclosing : Option ScopeId) :
    running.Meets anything (onScopes (Store.newScope enclosing))
      (onScopes (Store.newScope enclosing)) := by
  refine .of_ends fun machine sound => ⟨trivial, fun scope member => ?_⟩
  rcases Array.mem_push.mp member with old | rfl
  · exact sound scope old
  · intro binding listed
    cases listed

/-- Changing one scope as is right for every scope. -/
theorem forall_modify {holds : Scope → Prop} {forest : Forest} {home : ScopeId}
    (each : ∀ scope ∈ forest, holds scope) {change : Scope → Scope}
    (changed : ∀ scope, holds scope → holds (change scope)) :
    ∀ scope ∈ forest.modify home change, holds scope := by
  intro scope member
  obtain ⟨index, found⟩ := Array.mem_iff_getElem?.mp member
  rw [Array.getElem?_modify] at found
  split at found
  · obtain ⟨old, inForest, rfl⟩ := Option.map_eq_some_iff.mp found
    exact changed old (each old (Array.mem_of_getElem? inForest))
  · exact each scope (Array.mem_of_getElem? found)

theorem define_meets (id : ScopeId) (name : String) (added : Value.Sound value) :
    running.Meets anything (onScopes (Store.define id name value))
      (onScopes (Store.define id name value)) := by
  refine .of_ends fun machine sound => ?_
  by_cases defined : machine.forest.isDefined id name
  · have run : onScopes (Store.define id name value) machine = .error (.duplicate name) machine := by
      simp [onScopes, Store.define, defined]
    rw [run]
    exact ⟨.inl rfl, sound⟩
  · have run : onScopes (Store.define id name value) machine =
        .ok () { machine with forest := machine.forest.modify id (·.bind name value) } := by
      simp [onScopes, Store.define, defined]
    rw [run]
    exact ⟨trivial, forall_modify sound fun scope old => old.bind name added⟩

theorem assign_meets (id : ScopeId) (name : String) (added : Value.Sound value) :
    running.Meets Value.Sound (onScopes (Store.assign id name value))
      (onScopes (Store.assign id name value)) := by
  refine .of_ends fun machine sound => ?_
  cases resolved : machine.forest.resolve id name with
  | none =>
    have run : onScopes (Store.assign id name value) machine = .error (.undefined name) machine := by
      simp [onScopes, Store.assign, resolved]
    rw [run]
    exact ⟨.inl rfl, sound⟩
  | some home =>
    have run : onScopes (Store.assign id name value) machine =
        .ok value { machine with forest := machine.forest.modify home (·.rebind name value) } := by
      simp [onScopes, Store.assign, resolved]
    rw [run]
    exact ⟨added, forall_modify sound fun scope old => old.rebind name added⟩

theorem lookup_meets (name : String) : running.Meets Value.Sound (lookup name) (lookup name) := by
  refine .bind .get fun machine sound => ?_
  cases got : machine.forest.get machine.current name with
  | ok value =>
    obtain ⟨home, scope, -, inForest, bound⟩ := Forest.get_eq_ok got
    exact .pure (sound scope (Array.mem_of_getElem? inForest) _ bound)
  | error fault =>
    obtain rfl := Forest.get_eq_error got
    exact .throw (.inl rfl)

end Eval

namespace Value

theorem operands_isLanguage (failed : operands operator left right = .error fault) :
    fault.isLanguage := by
  unfold operands at failed
  split at failed <;> cases failed <;> rfl

/-- The operators that are applied to two numbers. -/
def arithmeticOperators : List String :=
  ["+", "-", "*", "/", ">", ">=", "<", "<="]

theorem arithmetic_outcome (known : operator ∈ arithmeticOperators) (left right : Float) :
    (∃ scalar, arithmetic operator left right = .ok (.scalar scalar) ∧
      (Value.scalar scalar).isRuntime) ∨
    arithmetic operator left right = .error (.divisionByZero (.number left)) := by
  simp only [arithmeticOperators, List.mem_cons, List.not_mem_nil, or_false] at known
  rcases known with rfl | rfl | rfl | rfl | rfl | rfl | rfl | rfl
  case inr.inr.inr.inl =>
    by_cases zero : Number.isZero right
    · exact .inr (by simp [arithmetic, zero])
    · exact .inl ⟨.number (left / right), by simp [arithmetic, zero, Value.number], rfl⟩
  all_goals exact .inl ⟨_, rfl, rfl⟩

/-- A plain value of the language, or a failure of it. -/
def Computed (result : Except Fault Value) : Prop :=
  (∃ scalar, result = .ok (.scalar scalar) ∧ (Value.scalar scalar).isRuntime) ∨
    ∃ fault, result = .error fault ∧ fault.isLanguage

theorem binary_computed (known : operator ∈ binaryOperators) (left right : Value) :
    Computed (binary operator left right) := by
  have listed : operator = "==" ∨ operator = "!=" ∨ operator ∈ arithmeticOperators := by
    simp only [binaryOperators, arithmeticOperators, List.mem_cons, List.not_mem_nil,
      or_false] at known ⊢
    grind
  rcases listed with rfl | rfl | isArithmetic
  · exact .inl ⟨_, rfl, rfl⟩
  · exact .inl ⟨_, rfl, rfl⟩
  · have notEquality : operator ≠ "==" ∧ operator ≠ "!=" := by
      constructor <;> rintro rfl <;> simp [arithmeticOperators] at isArithmetic
    unfold binary
    split
    · exact absurd rfl notEquality.1
    · exact absurd rfl notEquality.2
    · cases both : operands operator left right with
      | error fault => exact .inr ⟨fault, rfl, operands_isLanguage both⟩
      | ok pair =>
        rcases arithmetic_outcome isArithmetic pair.1 pair.2 with proper | zero
        · exact .inl proper
        · exact .inr ⟨_, zero, rfl⟩

theorem unary_computed (known : operator ∈ unaryOperators) (operand : Value) :
    Computed (unary operator operand) := by
  simp only [unaryOperators, List.mem_cons, List.not_mem_nil, or_false] at known
  rcases known with rfl | rfl
  · cases operand with
    | function callee => exact .inr ⟨_, rfl, rfl⟩
    | scalar value =>
      cases value with
      | number x => exact .inl ⟨.number (-x), rfl, rfl⟩
      | _ => exact .inr ⟨_, rfl, rfl⟩
  · exact .inl ⟨_, rfl, rfl⟩

end Value

namespace Eval

theorem computed_meets {result : Except Fault Value} (computed : Value.Computed result) :
    running.Meets Value.Sound (ofExcept result) (ofExcept result) := by
  rcases computed with ⟨scalar, rfl, plain⟩ | ⟨fault, rfl, isLanguage⟩
  · exact .pure (.scalar plain)
  · exact .throw (.inl isLanguage)

section

variable {evaluate other : Node → Eval Value} {execute another : Node → Eval Flow}

/-- Evaluation of well-formed expressions is as it must be. -/
def Evaluates (evaluate other : Node → Eval Value) : Prop :=
  ∀ ⦃node⦄, WellFormed .expression node → running.Meets Value.Sound (evaluate node) (other node)

/-- Execution of well-formed statements is as it must be. -/
def Executes (execute other : Node → Eval Flow) : Prop :=
  ∀ ⦃node⦄, WellFormed .declaration node → running.Meets Flow.Sound (execute node) (other node)

theorem executeAll_meets (executed : Executes execute another) {statements : List Node}
    (each : ∀ statement ∈ statements, WellFormed .declaration statement) :
    running.Meets Flow.Sound (executeAll execute statements) (executeAll another statements) := by
  induction statements with
  | nil => exact .pure .normal
  | cons statement rest ih =>
    refine .bind (executed (each statement (by simp))) fun flow sound => ?_
    cases sound with
    | normal => exact ih fun later member => each later (by simp [member])
    | returned sound => exact .pure (.returned sound)

theorem evaluateAll_meets (evaluated : Evaluates evaluate other) {nodes : List Node}
    {found : Array Value} (each : ∀ node ∈ nodes, WellFormed .expression node)
    (sound : ∀ value ∈ found.toList, Value.Sound value) :
    running.Meets (fun values => ∀ value ∈ values.toList, Value.Sound value)
      (evaluateAll evaluate found nodes) (evaluateAll other found nodes) := by
  induction nodes generalizing found with
  | nil => exact .pure sound
  | cons node rest ih =>
    refine .bind (evaluated (each node (by simp))) fun value proper => ?_
    refine ih (fun later member => each later (by simp [member])) fun known member => ?_
    rw [Array.toList_push, List.mem_append, List.mem_singleton] at member
    rcases member with old | rfl
    · exact sound known old
    · exact proper

theorem bindParams_meets (id : ScopeId) (names : List String) {values : List Value}
    (sound : ∀ value ∈ values, Value.Sound value) :
    running.Meets anything (bindParams id names values) (bindParams id names values) := by
  induction names generalizing values with
  | nil => exact .pure trivial
  | cons name names ih =>
    cases values with
    | nil => exact .pure trivial
    | cons value values =>
      refine .bind (define_meets id name (sound value (by simp))) fun _ _ => ?_
      exact ih fun later member => sound later (by simp [member])

theorem note_meets (event : Event) : running.Meets anything (note event) (note event) :=
  .of_ends fun _ sound => ⟨trivial, sound⟩

theorem print_meets (line : String) : running.Meets anything (print line) (print line) :=
  .of_ends fun _ sound => ⟨trivial, sound⟩

/-- Nothing cuts a run off, so an action that meets its contract does what the other does. -/
theorem same_of_meets {action same : Eval α} (inner : running.Meets result action same)
    (sound : Machine.Sound machine) : action machine = same machine := by
  rcases (inner machine sound).2 with ⟨_, _, impossible, _⟩ | agrees
  · cases impossible
  · exact agrees

/-- Only the scopes matter, and not which of them is the current one. -/
theorem inScope_meets (id : ScopeId) {action same : Eval α} (inner : running.Meets result action same) :
    running.Meets result (inScope id action) (inScope id same) := by
  intro machine sound
  have inside : Machine.Sound { machine with current := id } := sound
  have ends := (inner _ inside).1
  have agrees := same_of_meets inner inside
  unfold inScope
  rw [agrees] at ends ⊢
  refine ⟨?_, .inr rfl⟩
  generalize same { machine with current := id } = outcome at ends
  cases outcome with
  | ok value after => exact ends
  | error fault after => exact ends

theorem catchDepth_meets {action same : Eval α} (inner : running.Meets result action same) :
    settled.Meets result (catchDepth action) (catchDepth same) := by
  intro machine sound
  have ends := (inner machine sound).1
  have agrees := same_of_meets inner sound
  unfold catchDepth
  rw [agrees] at ends ⊢
  refine ⟨?_, .inr rfl⟩
  generalize same machine = outcome at ends
  cases outcome with
  | ok value after => exact ends
  | error fault after =>
    obtain ⟨isLanguage | rfl | rfl, kept⟩ := ends
    · cases fault <;> first | exact ⟨.inl rfl, kept⟩ | cases isLanguage
    · exact ⟨.inr rfl, kept⟩
    · exact ⟨.inl rfl, kept⟩

theorem running_of_settled {action same : Eval α} (meets : settled.Meets result action same) :
    running.Meets result action same := by
  intro machine sound
  obtain ⟨ends, agrees⟩ := meets machine sound
  refine ⟨?_, agrees⟩
  generalize action machine = outcome at ends ⊢
  cases outcome with
  | ok value after => exact ends
  | error fault after => exact ⟨ends.1.imp_right .inl, ends.2⟩

theorem call_meets (executed : Executes execute another) (callee : Value.Sound (.function function))
    {values : List Value} (sound : ∀ value ∈ values, Value.Sound value) :
    running.Meets Value.Sound (call execute function values) (call another function values) := by
  unfold call
  by_cases wrong : values.length ≠ function.arity
  · rw [if_pos wrong, if_pos wrong]
    exact .throw (.inl rfl)
  · rw [if_neg wrong, if_neg wrong]
    refine .bind (newScope_meets _) fun scope _ => .bind (bindParams_meets scope _ sound) fun _ _ =>
      .bind (note_meets _) fun _ _ => ?_
    cases callee with
    | function each =>
      have body := inScope_meets scope (executeAll_meets executed each)
      refine .bind (running_of_settled (catchDepth_meets body)) fun flow ended => ?_
      cases ended with
      | normal => exact .pure (.scalar rfl)
      | returned proper => exact .pure proper

theorem matchArms_meets (evaluated : Evaluates evaluate other) (subject : Value)
    {arms : List (Int × Node × Node)} (patterns : ∀ arm ∈ arms, WellFormed .expression arm.2.1)
    (bodies : ∀ arm ∈ arms, WellFormed .expression arm.2.2) :
    running.Meets Value.Sound
      (matchArms evaluate subject (arms.map fun arm => .matchArm arm.1 arm.2.1 arm.2.2))
      (matchArms other subject (arms.map fun arm => .matchArm arm.1 arm.2.1 arm.2.2)) := by
  induction arms with
  | nil => exact .throw (.inl rfl)
  | cons arm rest ih =>
    refine .bind (evaluated (patterns arm (by simp))) fun value _ => ?_
    split
    · exact evaluated (bodies arm (by simp))
    · exact ih (fun later member => patterns later (by simp [member]))
        (fun later member => bodies later (by simp [member]))

theorem repeatWhile_meets (evaluated : Evaluates evaluate other) (executed : Executes execute another)
    (condition : WellFormed .expression test) (branch : WellFormed .statement body) (turns : Nat) :
    running.Meets Flow.Sound (repeatWhile evaluate execute test body turns)
      (repeatWhile other another test body turns) := by
  induction turns with
  | zero => exact .throw (.inr (.inl rfl))
  | succ turns ih =>
    refine .bind (evaluated condition) fun value _ => ?_
    split
    · refine .bind (executed (.statement branch)) fun flow ended => ?_
      cases ended with
      | normal => exact ih
      | returned proper => exact .pure (.returned proper)
    · exact .pure .normal

theorem evaluateNode_meets (evaluated : Evaluates evaluate other)
    (executed : Executes execute another) :
    Evaluates (evaluateNode evaluate execute) (evaluateNode other another) := by
  intro node wellFormed
  cases wellFormed with
  | literal source => exact .pure (.scalar (Value.isRuntime_of_isSource source))
  | binary known left right =>
    exact .bind (evaluated left) fun first _ => .bind (evaluated right) fun second _ =>
      computed_meets (Value.binary_computed known first second)
  | unary known operand =>
    exact .bind (evaluated operand) fun value _ => computed_meets (Value.unary_computed known value)
  | reference named => exact lookup_meets _
  | assignment named value =>
    exact .bind (evaluated value) fun result proper => .bind .get fun machine _ =>
      assign_meets machine.current _ proper
  | call callee each =>
    refine .bind (evaluated callee) fun value proper => ?_
    cases value with
    | scalar plain => exact .throw (.inl rfl)
    | function function =>
      exact .bind (evaluateAll_meets evaluated each (by simp)) fun values sound =>
        call_meets executed proper sound
  | matching arms subject patterns bodies =>
    exact .bind (evaluated subject) fun value _ => matchArms_meets evaluated value patterns bodies

/-- A part that may be absent is evaluated only where it is there. -/
theorem executeStatement_meets (evaluated : Evaluates evaluate other)
    (executed : Executes execute another) (turns : Nat) (wellFormed : WellFormed .statement node) :
    running.Meets Flow.Sound (executeNode evaluate execute turns node)
      (executeNode other another turns node) := by
  cases wellFormed with
  | exprStmt expression => exact .bind (evaluated expression) fun _ _ => .pure .normal
  | printStmt expression =>
    exact .bind (evaluated expression) fun _ _ => .bind (print_meets _) fun _ _ => .pure .normal
  | ifOnly condition branch =>
    refine .bind (evaluated condition) fun value _ => ?_
    split
    · exact executed (.statement branch)
    · exact .pure .normal
  | ifElse condition branch closed otherwise =>
    refine .bind (evaluated condition) fun value _ => ?_
    rw [otherwise.present]
    split
    · exact executed (.statement branch)
    · exact executed (.statement otherwise)
  | whileStmt condition branch => exact repeatWhile_meets evaluated executed condition branch turns
  | block each =>
    refine .bind (.bind .get fun _ _ => newScope_meets _) fun scope _ => ?_
    exact inScope_meets scope (executeAll_meets executed each)
  | bareReturn => exact .pure (.returned (.scalar rfl))
  | returnStmt value =>
    rw [executeNode, executeNode, value.present]
    exact .bind (evaluated value) fun _ proper => .pure (.returned proper)

theorem executeNode_meets (evaluated : Evaluates evaluate other)
    (executed : Executes execute another) (turns : Nat) :
    Executes (executeNode evaluate execute turns) (executeNode other another turns) := by
  intro node wellFormed
  have declared : ∀ name value, Value.Sound value →
      running.Meets Flow.Sound (do define name value; return .normal) (do define name value; return .normal) := by
    intro name value sound
    exact .bind (.bind .get fun machine _ => define_meets machine.current name sound)
      fun _ _ => .pure .normal
  cases wellFormed with
  | statement inner => exact executeStatement_meets evaluated executed turns inner
  | bareVar named =>
    exact .bind (.pure (.scalar rfl)) fun value sound => declared _ value sound
  | varDecl named initializer =>
    rw [executeNode, executeNode, initializer.present]
    exact .bind (evaluated initializer) fun value sound => declared _ value sound
  | fnDecl named params body =>
    exact .bind (.bind .get fun _ _ => newScope_meets _) fun closure _ => declared _ _ (.function body)

end

/-- An action that is stopped where the machine does not pass a check before or after it. Around each
expression and each statement, this misses no value: scopes change in the last step of an assignment
or a declaration, and where parameters are bound, right before the first statement of a body. -/
def checked (check : Machine → Bool) (action : Eval α) : Eval α := fun machine =>
  if check machine then
    if check (final (action machine)) then action machine
    else .error .missingPart (final (action machine))
  else .error .missingPart machine

mutual

def evaluateChecked (check : Machine → Bool) (turns : Nat) : (depth : Nat) → Node → Eval Value
  | 0, _ => throw .depthExceeded
  | depth + 1, node => checked check
    (evaluateNode (evaluateChecked check turns depth) (executeChecked check turns depth) node)

def executeChecked (check : Machine → Bool) (turns : Nat) : (depth : Nat) → Node → Eval Flow
  | 0, _ => throw .depthExceeded
  | depth + 1, node => checked check
    (executeNode (evaluateChecked check turns depth) (executeChecked check turns depth) turns node)

end

/-- Runs the statements of a program with all these checks. -/
def interpretChecked (check : Machine → Bool) (limits : Limits) : List Node → Eval Unit
  | [] => return ()
  | statement :: rest => do
    match ← catchDepth (executeChecked check limits.turns limits.depth statement) with
    | .returned value => note (.discarded value)
    | .normal => interpretChecked check limits rest

section

variable {check : Machine → Bool}

theorem checked_meets (passes : ∀ machine, Machine.Sound machine → check machine) {action same : Eval α}
    (inner : running.Meets result action same) :
    running.Meets result (checked check action) same := by
  intro machine sound
  have run : checked check action machine = action machine := by
    have kept : Machine.Sound (final (action machine)) := by
      have ends := (inner machine sound).1
      cases outcome : action machine with
      | ok value after =>
        rw [outcome] at ends
        exact ends.2
      | error fault after =>
        rw [outcome] at ends
        exact ends.2
    rw [checked, if_pos (passes machine sound), if_pos (passes _ kept)]
  rw [run]
  exact inner machine sound

theorem within_meets (passes : ∀ machine, Machine.Sound machine → check machine) (turns depth : Nat) :
    Evaluates (evaluateChecked check turns depth) (evaluateWithin turns depth) ∧
      Executes (executeChecked check turns depth) (executeWithin turns depth) := by
  induction depth with
  | zero =>
    constructor
    · intro node _
      exact .throw (.inr (.inr rfl))
    · intro node _
      exact .throw (.inr (.inr rfl))
  | succ depth ih =>
    obtain ⟨evaluated, executed⟩ := ih
    constructor
    · intro node wellFormed
      exact checked_meets passes (evaluateNode_meets evaluated executed wellFormed)
    · intro node wellFormed
      exact checked_meets passes (executeNode_meets evaluated executed turns wellFormed)

/-- A well-formed program runs through all the checks, and ends as programs may. -/
theorem interpret_meets (passes : ∀ machine, Machine.Sound machine → check machine) (limits : Limits)
    (wellFormed : WellFormedProgram program) :
    settled.Meets anything (interpretChecked check limits program) (interpret limits program) := by
  induction program with
  | nil => exact .pure trivial
  | cons statement rest ih =>
    have executed := (within_meets passes limits.turns limits.depth).2 (wellFormed statement (by simp))
    refine .bind (catchDepth_meets executed) fun flow _ => ?_
    cases flow with
    | normal => exact ih fun later member => wellFormed later (by simp [member])
    | returned value => exact .of_ends fun _ sound => ⟨trivial, sound⟩

end

end Eval

end Scriptlet
