import Scriptlet.Proofs.Machine.Account
import Scriptlet.Proofs.Node.Identifiers

/-! Two machines that look the same to the names that a program uses. If the elementary steps cannot
tell them apart, no run can: both runs give the same value or the same fault, and they leave machines
that look the same again. -/
namespace Scriptlet

open Scriptlet.Action

namespace Eval

structure Parallel (κ : Type) where
  /-- The machine and its twin are as the knowledge says. -/
  fits : κ → Machine → Machine → Prop
  /-- The value is one that can be met. -/
  knows : κ → Value → Prop
  /-- The names that may be used. -/
  allows : String → Prop
  /-- How the knowledge may change. -/
  change : κ → κ → Prop
  refl : ∀ known, change known known
  trans : ∀ {first second third}, change first second → change second third → change first third
  keeps : ∀ {known later value}, change known later → knows known value → knows later value
  scalar : ∀ known value, knows known (.scalar value)
  callee : ∀ {known function}, knows known (.function function) →
    ∀ name ∈ function.params ++ function.body.identifiers, allows name
  size : ∀ {known machine twin}, fits known machine twin → twin.forest.size = machine.forest.size
  current : ∀ {known machine twin}, fits known machine twin → twin.current = machine.current
  get : ∀ {known machine twin name}, fits known machine twin → allows name →
    twin.forest.get twin.current name = machine.forest.get machine.current name
  resolve : ∀ {known machine twin name}, fits known machine twin → allows name →
    twin.forest.resolve twin.current name = machine.forest.resolve machine.current name
  isDefined : ∀ {known machine twin name}, fits known machine twin → allows name →
    twin.forest.isDefined twin.current name = machine.forest.isDefined machine.current name
  found : ∀ {known machine twin name value}, fits known machine twin →
    machine.forest.get machine.current name = .ok value → knows known value
  printed : ∀ {known machine twin} line, fits known machine twin →
    fits known { machine with output := machine.output.push line }
      { twin with output := twin.output.push line }
  noted : ∀ {known machine twin} event, fits known machine twin →
    fits known { machine with events := machine.events.push event }
      { twin with events := twin.events.push event }
  assigned : ∀ {known machine twin name home value}, fits known machine twin → allows name →
    knows known value → machine.forest.resolve machine.current name = some home →
    ∃ later, change known later ∧
      fits later { machine with forest := machine.forest.modify home (·.rebind name value) }
        { twin with forest := twin.forest.modify home (·.rebind name value) }
  defined : ∀ {known machine twin name value}, fits known machine twin → allows name →
    knows known value → machine.forest.isDefined machine.current name = false →
    ∃ later, change known later ∧
      fits later { machine with forest := machine.forest.modify machine.current (·.bind name value) }
        { twin with forest := twin.forest.modify twin.current (·.bind name value) }
  /-- A function is made, with a scope of its own inside the current one. -/
  closed : ∀ {known machine twin}, fits known machine twin →
    ∃ later, change known later ∧
      fits later { machine with forest := machine.forest.push ⟨some machine.current, []⟩ }
        { twin with forest := twin.forest.push ⟨some twin.current, []⟩ } ∧
      ∀ name params body, (∀ used ∈ params ++ body.identifiers, allows used) →
        knows later (.function ⟨name, params, body, machine.forest.size⟩)
  /-- A fresh scope is entered, which lies inside the current one or that of a function; whatever is
  executed in it, it is left again. -/
  entered : ∀ {known machine twin enclosing}, fits known machine twin →
    (enclosing = machine.current ∨ ∃ function, knows known (.function function) ∧
      enclosing = function.closure) →
    ∃ inner, change known inner ∧
      fits inner { machine with
          forest := machine.forest.push ⟨some enclosing, []⟩
          current := machine.forest.size }
        { twin with
          forest := twin.forest.push ⟨some enclosing, []⟩
          current := twin.forest.size } ∧
      ∀ {last after twinAfter}, change inner last → fits last after twinAfter →
        fits last { after with current := machine.current }
          { twinAfter with current := twin.current }

namespace Parallel

variable {κ : Type} {pair : Parallel κ} {known : κ}
variable {result : κ → α → Prop} {further : κ → β → Prop}

def knowsFlow (pair : Parallel κ) (known : κ) : Flow → Prop
  | .normal => True
  | .returned value => pair.knows known value

/-- All of the names may be used. -/
def Permits (pair : Parallel κ) (names : List String) : Prop :=
  ∀ name ∈ names, pair.allows name

theorem permits_append {names others : List String} :
    pair.Permits (names ++ others) ↔ pair.Permits names ∧ pair.Permits others :=
  List.forall_mem_append

theorem permits_cons {name : String} {names : List String} :
    pair.Permits (name :: names) ↔ pair.allows name ∧ pair.Permits names :=
  List.forall_mem_cons

/-- Both runs end with the same value or the same fault, on machines that look the same. -/
inductive Ends (pair : Parallel κ) (known : κ) (result : κ → α → Prop) :
    EStateM.Result Fault Machine α → EStateM.Result Fault Machine α → Prop where
  | ok (changed : pair.change known later) (fits : pair.fits later after twin)
      (proper : result later value) : Ends pair known result (.ok value after) (.ok value twin)
  | error (changed : pair.change known later) (fits : pair.fits later after twin) :
      Ends pair known result (.error fault after) (.error fault twin)

/-- The action cannot tell the machine and its twin apart. -/
def Runs (pair : Parallel κ) (known : κ) (result : κ → α → Prop) (action : Eval α) : Prop :=
  ∀ machine twin, pair.fits known machine twin →
    pair.Ends known result (action machine) (action twin)

/-- What is known at the start is known to be the start of all that follows. -/
theorem Ends.from (changed : pair.change known later) {one two : EStateM.Result Fault Machine α}
    (ends : pair.Ends later result one two) : pair.Ends known result one two := by
  cases ends with
  | ok further fits proper => exact .ok (pair.trans changed further) fits proper
  | error further fits => exact .error (pair.trans changed further) fits

theorem Runs.pure (proper : result known value) : pair.Runs known result (pure value) :=
  fun _ _ fits => .ok (pair.refl known) fits proper

theorem Runs.throw (fault : Fault) : pair.Runs known result (throw fault) :=
  fun _ _ fits => .error (pair.refl known) fits

theorem Runs.ofExcept {computed : Except Fault α}
    (proper : ∀ value, computed = .ok value → result known value) :
    pair.Runs known result (Eval.ofExcept computed) := by
  cases computed with
  | ok value => exact .pure (proper value rfl)
  | error fault => exact .throw fault

theorem Runs.bind {first : Eval α} {rest : α → Eval β} (begins : pair.Runs known result first)
    (goes : ∀ later value, pair.change known later → result later value →
      pair.Runs later further (rest value)) : pair.Runs known further (first >>= rest) := by
  intro machine twin fits
  have began := begins machine twin fits
  rw [bind_run, bind_run]
  generalize first machine = one at began
  generalize first twin = two at began
  cases began with
  | ok changed fits proper => exact (goes _ _ changed proper _ _ fits).from changed
  | error changed fits => exact .error changed fits

theorem catchDepth_runs {action : Eval α} (inner : pair.Runs known result action) :
    pair.Runs known result (catchDepth action) := by
  intro machine twin fits
  have ended := inner machine twin fits
  unfold catchDepth
  generalize action machine = one at ended
  generalize action twin = two at ended
  cases ended with
  | ok changed fits proper => exact .ok changed fits proper
  | @error _ _ _ fault changed fits => cases fault <;> exact .error changed fits

theorem lookup_runs {name : String} (allowed : pair.allows name) :
    pair.Runs known pair.knows (lookup name) := by
  intro machine twin fits
  have run (machine : Machine) :
      lookup name machine = ofExcept (machine.forest.get machine.current name) machine := rfl
  rw [run, run, pair.get fits allowed]
  exact Runs.ofExcept (fun value got => pair.found fits got) machine twin fits

theorem print_runs (line : String) : pair.Runs known (fun _ _ => True) (print line) :=
  fun _ _ fits => .ok (pair.refl known) (pair.printed line fits) trivial

theorem note_runs (event : Event) : pair.Runs known (fun _ _ => True) (note event) :=
  fun _ _ fits => .ok (pair.refl known) (pair.noted event fits) trivial

theorem assign_runs {name : String} (allowed : pair.allows name) (proper : pair.knows known value) :
    pair.Runs known pair.knows (assign name value) := by
  intro machine twin fits
  rw [assign_run, assign_run, pair.resolve fits allowed]
  cases resolved : machine.forest.resolve machine.current name with
  | none => exact .error (pair.refl known) fits
  | some home =>
    obtain ⟨later, changed, fits⟩ := pair.assigned fits allowed proper resolved
    exact .ok changed fits (pair.keeps changed proper)

theorem define_runs {name : String} (allowed : pair.allows name) (proper : pair.knows known value) :
    pair.Runs known (fun _ _ => True) (define name value) := by
  intro machine twin fits
  rw [define_run, define_run, pair.isDefined fits allowed]
  by_cases defined : machine.forest.isDefined machine.current name
  · rw [if_pos defined, if_pos defined]
    exact .error (pair.refl known) fits
  · rw [if_neg defined, if_neg defined]
    obtain ⟨later, changed, fits⟩ :=
      pair.defined fits allowed proper (Bool.eq_false_iff.mpr defined)
    exact .ok changed fits trivial

/-- What is done in a fresh scope. -/
theorem inside_runs {action : Eval α} {enclosing : ScopeId} {machine twin : Machine}
    (fits : pair.fits known machine twin)
    (lies : enclosing = machine.current ∨
      ∃ function, pair.knows known (.function function) ∧ enclosing = function.closure)
    (body : ∀ inner, pair.change known inner → pair.Runs inner result action) :
    pair.Ends known result (inside enclosing action machine) (inside enclosing action twin) := by
  obtain ⟨inner, opened, inFits, left⟩ := pair.entered fits lies
  have ended := body inner opened _ _ inFits
  rw [inside_run, inside_run]
  unfold inScope
  dsimp only
  generalize action { machine with
    forest := machine.forest.push ⟨some enclosing, []⟩, current := machine.forest.size } = one at ended
  generalize action { twin with
    forest := twin.forest.push ⟨some enclosing, []⟩, current := twin.forest.size } = two at ended
  cases ended with
  | ok changed fits proper => exact .ok (pair.trans opened changed) (left changed fits) proper
  | error changed fits => exact .error (pair.trans opened changed) (left changed fits)

section

variable {evaluate : Node → Eval Value} {execute : Node → Eval Flow}

/-- Evaluation cannot tell the machines apart. -/
def Evaluates (pair : Parallel κ) (evaluate : Node → Eval Value) : Prop :=
  ∀ node, pair.Permits node.identifiers → ∀ known, pair.Runs known pair.knows (evaluate node)

/-- Execution cannot tell the machines apart. -/
def Executes (pair : Parallel κ) (execute : Node → Eval Flow) : Prop :=
  ∀ node, pair.Permits node.identifiers → ∀ known, pair.Runs known pair.knowsFlow (execute node)

theorem executeAll_runs (executed : pair.Executes execute) {statements : List Node}
    (permitted : pair.Permits (Node.identifiersAll statements)) (known : κ) :
    pair.Runs known pair.knowsFlow (executeAll execute statements) := by
  induction statements generalizing known with
  | nil => exact .pure trivial
  | cons statement rest ih =>
    obtain ⟨here, below⟩ := permits_append.mp permitted
    refine .bind (executed statement here known) fun later flow _ proper => ?_
    cases flow with
    | normal => exact ih below later
    | returned value => exact .pure proper

theorem evaluateAll_runs (evaluated : pair.Evaluates evaluate) {nodes : List Node}
    (permitted : pair.Permits (Node.identifiersAll nodes)) (found : Array Value) (known : κ)
    (proper : ∀ value ∈ found.toList, pair.knows known value) :
    pair.Runs known (fun later values => ∀ value ∈ values.toList, pair.knows later value)
      (evaluateAll evaluate found nodes) := by
  induction nodes generalizing found known with
  | nil => exact .pure proper
  | cons node rest ih =>
    obtain ⟨here, below⟩ := permits_append.mp permitted
    refine .bind (evaluated node here known) fun later value changed knows => ih below _ later ?_
    intro known member
    rw [Array.toList_push, List.mem_append, List.mem_singleton] at member
    rcases member with old | rfl
    · exact pair.keeps changed (proper known old)
    · exact knows

theorem bindHere_runs {names : List String} (permitted : pair.Permits names) (values : List Value)
    (known : κ) (proper : ∀ value ∈ values, pair.knows known value) :
    pair.Runs known (fun _ _ => True) (bindHere names values) := by
  induction names generalizing values known with
  | nil => exact .pure trivial
  | cons name names ih =>
    obtain ⟨here, below⟩ := permits_cons.mp permitted
    cases values with
    | nil => exact .pure trivial
    | cons value values =>
      refine .bind (define_runs here (proper value (by simp))) fun later _ changed _ => ?_
      exact ih below values later fun other member =>
        pair.keeps changed (proper other (by simp [member]))

theorem call_runs (executed : pair.Executes execute) {function : Function} {values : List Value}
    (callee : pair.knows known (.function function))
    (proper : ∀ value ∈ values, pair.knows known value) :
    pair.Runs known pair.knows (call execute function values) := by
  obtain ⟨params, whole⟩ := permits_append.mp (pair.callee callee)
  rw [call_eq]
  split
  · exact .throw _
  · have body : ∀ inner, pair.change known inner →
        pair.Runs inner pair.knowsFlow (callInside execute function values) := by
      intro inner changed
      have given : ∀ value ∈ values, pair.knows inner value := fun value member =>
        pair.keeps changed (proper value member)
      refine .bind (bindHere_runs params values inner given) fun later _ _ _ =>
        .bind (note_runs _) fun last _ _ _ => ?_
      cases inFunction : function.body with
      | block line statements =>
        rw [inFunction] at whole
        exact catchDepth_runs (executeAll_runs executed whole last)
      | _ => exact .throw _
    have called : pair.Runs known pair.knowsFlow
        (inside function.closure (callInside execute function values)) :=
      fun _ _ fits => inside_runs fits (.inr ⟨function, callee, rfl⟩) body
    refine .bind called fun later flow _ proper => ?_
    cases flow with
    | normal => exact .pure (pair.scalar later _)
    | returned value => exact .pure proper

theorem matchArms_runs (evaluated : pair.Evaluates evaluate) (subject : Value) {arms : List Node}
    (permitted : pair.Permits (Node.identifiersAll arms)) (known : κ) :
    pair.Runs known pair.knows (matchArms evaluate subject arms) := by
  induction arms generalizing known with
  | nil => exact .throw _
  | cons arm rest ih =>
    obtain ⟨here, below⟩ := permits_append.mp permitted
    cases arm with
    | matchArm line pattern body =>
      obtain ⟨inPattern, inBody⟩ := permits_append.mp here
      refine .bind (evaluated pattern inPattern known) fun later value _ _ => ?_
      split
      · exact evaluated body inBody later
      · exact ih below later
    | _ => exact .throw _

theorem repeatWhile_runs (evaluated : pair.Evaluates evaluate) (executed : pair.Executes execute)
    {condition body : Node} (inCondition : pair.Permits condition.identifiers)
    (inBody : pair.Permits body.identifiers) (turns : Nat) (known : κ) :
    pair.Runs known pair.knowsFlow (repeatWhile evaluate execute condition body turns) := by
  induction turns generalizing known with
  | zero => exact .throw _
  | succ turns ih =>
    refine .bind (evaluated condition inCondition known) fun later value _ _ => ?_
    split
    · refine .bind (executed body inBody later) fun last flow _ proper => ?_
      cases flow with
      | normal => exact ih last
      | returned value => exact .pure proper
    · exact .pure trivial

theorem evaluateNode_runs (evaluated : pair.Evaluates evaluate) (executed : pair.Executes execute) :
    pair.Evaluates (evaluateNode evaluate execute) := by
  intro node permitted known
  cases node with
  | literal line value => exact .pure (pair.scalar known value)
  | binary line operator left right =>
    obtain ⟨inLeft, inRight⟩ := permits_append.mp permitted
    refine .bind (evaluated left inLeft known) fun later first _ _ =>
      .bind (evaluated right inRight later) fun last second _ _ => .ofExcept fun value computed => ?_
    obtain ⟨scalar, rfl⟩ := Value.binary_scalar computed
    exact pair.scalar last scalar
  | unary line operator operand =>
    refine .bind (evaluated operand permitted known) fun later value _ _ =>
      .ofExcept fun value computed => ?_
    obtain ⟨scalar, rfl⟩ := Value.unary_scalar computed
    exact pair.scalar later scalar
  | reference line name => exact lookup_runs (permitted name (List.mem_singleton_self name))
  | assignment line name value =>
    obtain ⟨target, inValue⟩ := permits_cons.mp permitted
    exact .bind (evaluated value inValue known) fun later result _ proper => assign_runs target proper
  | call line callee arguments =>
    obtain ⟨inCallee, inArguments⟩ := permits_append.mp permitted
    refine .bind (evaluated callee inCallee known) fun later value _ proper => ?_
    cases value with
    | scalar other => exact .throw _
    | function function =>
      refine .bind (evaluateAll_runs evaluated inArguments #[] later (by simp))
        fun last values changed each => ?_
      exact call_runs executed (pair.keeps changed proper) each
  | matching line subject arms =>
    obtain ⟨inSubject, inArms⟩ := permits_append.mp permitted
    exact .bind (evaluated subject inSubject known) fun later value _ _ =>
      matchArms_runs evaluated value inArms later
  | _ => exact .throw _

theorem block_runs (executed : pair.Executes execute) {statements : List Node}
    (permitted : pair.Permits (Node.identifiersAll statements)) (known : κ) :
    pair.Runs known pair.knowsFlow
      (do let scope ← innerScope; inScope scope (executeAll execute statements)) := by
  intro machine twin fits
  have run (machine : Machine) :
      (do let scope ← innerScope; inScope scope (executeAll execute statements) : Eval Flow) machine =
        inside machine.current (executeAll execute statements) machine := rfl
  rw [run, run, pair.current fits]
  exact inside_runs fits (.inl rfl) fun inner _ => executeAll_runs executed permitted inner

theorem declare_runs {name : String} (allowed : pair.allows name) (proper : pair.knows known value) :
    pair.Runs known pair.knowsFlow (do define name value; return .normal) :=
  .bind (define_runs allowed proper) fun _ _ _ _ => .pure trivial

/-- A function is made alike on both machines, since its scope has the same number. -/
theorem declareFunction_runs {name : String} {params : List String} {body : Node}
    (permitted : pair.Permits (name :: (params ++ body.identifiers))) (known : κ) :
    pair.Runs known pair.knowsFlow (do
      let closure ← innerScope
      define name (.function ⟨name, params, body, closure⟩)
      return .normal) := by
  obtain ⟨declared, inFunction⟩ := permits_cons.mp permitted
  have made : pair.Runs known
      (fun later closure => pair.knows later (.function ⟨name, params, body, closure⟩)) innerScope := by
    intro machine twin fits
    obtain ⟨later, changed, fitsLater, learned⟩ := pair.closed fits
    have run (machine : Machine) : innerScope machine = .ok machine.forest.size
        { machine with forest := machine.forest.push ⟨some machine.current, []⟩ } := rfl
    rw [run, run, pair.size fits]
    exact .ok changed fitsLater (learned name params body inFunction)
  exact .bind made fun later closure _ proper => declare_runs declared proper

theorem executeNode_runs (evaluated : pair.Evaluates evaluate) (executed : pair.Executes execute)
    (turns : Nat) : pair.Executes (executeNode evaluate execute turns) := by
  intro node permitted known
  cases node with
  | exprStmt line expression =>
    exact .bind (evaluated expression permitted known) fun _ _ _ _ => .pure trivial
  | varDecl line name initializer =>
    obtain ⟨declared, inInitializer⟩ := permits_cons.mp permitted
    rw [executeNode]
    split
    · exact .bind (.pure (pair.scalar known _)) fun _ _ _ proper => declare_runs declared proper
    · exact .bind (evaluated initializer inInitializer known) fun _ _ _ proper =>
        declare_runs declared proper
  | printStmt line expression =>
    exact .bind (evaluated expression permitted known) fun _ _ _ _ =>
      .bind (print_runs _) fun _ _ _ _ => .pure trivial
  | ifStmt line condition thenBranch elseBranch =>
    obtain ⟨inCondition, inBranches⟩ := permits_append.mp permitted
    obtain ⟨inThen, inElse⟩ := permits_append.mp inBranches
    refine .bind (evaluated condition inCondition known) fun later value _ _ => ?_
    split
    · exact executed thenBranch inThen later
    · split
      · exact .pure trivial
      · exact executed elseBranch inElse later
  | whileStmt line condition body =>
    obtain ⟨inCondition, inBody⟩ := permits_append.mp permitted
    exact repeatWhile_runs evaluated executed inCondition inBody turns known
  | block line statements => exact block_runs executed permitted known
  | fnDecl line name params body => exact declareFunction_runs permitted known
  | returnStmt line value =>
    rw [executeNode]
    split
    · exact .pure (pair.scalar known _)
    · exact .bind (evaluated value permitted known) fun _ _ _ proper => .pure proper
  | _ => exact .throw _

end

theorem within_runs (pair : Parallel κ) (turns depth : Nat) :
    pair.Evaluates (evaluateWithin turns depth) ∧ pair.Executes (executeWithin turns depth) := by
  induction depth with
  | zero =>
    constructor
    · exact fun _ _ _ => .throw _
    · exact fun _ _ _ => .throw _
  | succ depth ih =>
    obtain ⟨evaluated, executed⟩ := ih
    constructor
    · exact evaluateNode_runs evaluated executed
    · exact executeNode_runs evaluated executed turns

theorem evaluate_runs (pair : Parallel κ) (limits : Limits) : pair.Evaluates (evaluate limits) :=
  (pair.within_runs limits.turns limits.depth).1

theorem execute_runs (pair : Parallel κ) (limits : Limits) : pair.Executes (execute limits) :=
  (pair.within_runs limits.turns limits.depth).2

theorem apply_runs (pair : Parallel κ) (limits : Limits) {callee : Value} {arguments : List Value}
    (known : κ) (given : ∀ value ∈ callee :: arguments, pair.knows known value) :
    pair.Runs known pair.knows (apply limits callee arguments) := by
  obtain ⟨proper, each⟩ := List.forall_mem_cons.mp given
  cases callee with
  | scalar value => exact .throw _
  | function function => exact call_runs (pair.execute_runs limits) proper each

theorem interpret_runs (pair : Parallel κ) (limits : Limits) {program : List Node}
    (permitted : pair.Permits (Node.identifiersAll program)) (known : κ) :
    pair.Runs known (fun _ _ => True) (interpret limits program) := by
  induction program generalizing known with
  | nil => exact .pure trivial
  | cons statement rest ih =>
    obtain ⟨here, below⟩ := permits_append.mp permitted
    refine .bind (catchDepth_runs (pair.execute_runs limits statement here known))
      fun later flow _ _ => ?_
    cases flow with
    | normal => exact ih below later
    | returned value => exact note_runs _

end Parallel

end Eval

end Scriptlet
