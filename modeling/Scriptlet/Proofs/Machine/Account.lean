import Scriptlet.Script
import Scriptlet.Proofs.Machine.Safety

/-! Whatever is to be said of all runs is said by an account of them: what is known of the machine,
and how evaluating an expression and executing a statement may change what is known. It is enough that
the elementary steps keep to the account; then every run of every tree does. -/
namespace Scriptlet

open Scriptlet.Action

namespace Value

theorem arithmetic_scalar (computed : arithmetic operator left right = .ok value) :
    ∃ scalar, value = .scalar scalar := by
  unfold arithmetic at computed
  split at computed
  case h_4 =>
    split at computed
    · cases computed
    · cases computed
      exact ⟨_, rfl⟩
  case h_9 => cases computed
  all_goals
    cases computed
    exact ⟨_, rfl⟩

/-- Operators compute plain values, never functions. -/
theorem binary_scalar (computed : binary operator left right = .ok value) :
    ∃ scalar, value = .scalar scalar := by
  unfold binary at computed
  split at computed
  · cases computed
    exact ⟨_, rfl⟩
  · cases computed
    exact ⟨_, rfl⟩
  · split at computed
    · exact arithmetic_scalar computed
    · cases computed

theorem unary_scalar (computed : unary operator operand = .ok value) :
    ∃ scalar, value = .scalar scalar := by
  unfold unary at computed
  split at computed
  · split at computed
    · cases computed
      exact ⟨_, rfl⟩
    · cases computed
  · cases computed
    exact ⟨_, rfl⟩
  · cases computed

end Value

namespace Eval

/-- What is going on: an expression is evaluated or a statement is executed. -/
inductive Mode where
  | evaluating | executing

structure Account (κ : Type) where
  /-- The machine is as the knowledge says. -/
  fits : κ → Machine → Prop
  /-- The value is one that can be met. -/
  knows : κ → Value → Prop
  /-- How the knowledge may change. -/
  change : Mode → κ → κ → Prop
  refl : ∀ known, change .evaluating known known
  trans : ∀ {mode first second third}, change mode first second → change mode second third →
    change mode first third
  /-- A statement may do all that an expression may do. -/
  any : ∀ {mode known later}, change .evaluating known later → change mode known later
  keeps : ∀ {mode known later value}, change mode known later → knows known value → knows later value
  scalar : ∀ known value, knows known (.scalar value)
  found : ∀ {known machine name value}, fits known machine →
    machine.forest.get machine.current name = .ok value → knows known value
  /-- What was printed and noted does not matter. -/
  reported : ∀ {known machine} output events, fits known machine →
    ∃ later, change .evaluating known later ∧ fits later { machine with output, events }
  assigned : ∀ {known machine name home value}, fits known machine → knows known value →
    machine.forest.resolve machine.current name = some home →
    ∃ later, change .evaluating known later ∧
      fits later { machine with forest := machine.forest.modify home (·.rebind name value) }
  defined : ∀ {known machine name value}, fits known machine → knows known value →
    machine.forest.isDefined machine.current name = false →
    ∃ later, change .executing known later ∧
      fits later { machine with forest := machine.forest.modify machine.current (·.bind name value) }
  /-- A function is made, with a scope of its own inside the current one. -/
  closed : ∀ {known machine} name params body, fits known machine →
    ∃ later, change .evaluating known later ∧
      fits later { machine with forest := machine.forest.push ⟨some machine.current, []⟩ } ∧
      knows later (.function ⟨name, params, body, machine.forest.size⟩)
  /-- A fresh scope is entered, which lies inside the current one or that of a function; whatever is
  executed in it, it is left again. -/
  entered : ∀ {known machine enclosing}, fits known machine →
    (enclosing = machine.current ∨ ∃ function, knows known (.function function) ∧
      enclosing = function.closure) →
    ∃ inner, (∀ value, knows known value → knows inner value) ∧
      fits inner { machine with
        forest := machine.forest.push ⟨some enclosing, []⟩
        current := machine.forest.size } ∧
      ∀ last after, change .executing inner last → fits last after →
        ∃ later, change .evaluating known later ∧
          fits later { after with current := machine.current } ∧
          ∀ value, knows last value → knows later value

theorem define_run (name : String) (value : Value) (machine : Machine) :
    define name value machine =
      if machine.forest.isDefined machine.current name then .error (.duplicate name) machine
      else .ok () { machine with forest := machine.forest.modify machine.current (·.bind name value) } := by
  rw [define, bind_of_ok _ (get_run machine), onScopes, Store.define]
  cases machine.forest.isDefined machine.current name <;> rfl

theorem assign_run (name : String) (value : Value) (machine : Machine) :
    assign name value machine = match machine.forest.resolve machine.current name with
      | some home =>
        .ok value { machine with forest := machine.forest.modify home (·.rebind name value) }
      | none => .error (.undefined name) machine := by
  rw [assign, bind_of_ok _ (get_run machine), onScopes, Store.assign]
  cases machine.forest.resolve machine.current name <;> rfl

namespace Account

variable {κ : Type} {account : Account κ} {known later : κ} {mode : Mode}
variable {result : κ → α → Prop} {further : κ → β → Prop}

/-- Any result will do. -/
def unknown (_ : κ) (_ : α) : Prop :=
  True

def knowsFlow (account : Account κ) (known : κ) : Flow → Prop
  | .normal => True
  | .returned value => account.knows known value

/-- The outcome keeps to the account. -/
def Ends (account : Account κ) (mode : Mode) (known : κ) (result : κ → α → Prop) :
    EStateM.Result Fault Machine α → Prop
  | .ok value after => ∃ later, account.change mode known later ∧ account.fits later after ∧
      result later value
  | .error _ after => ∃ later, account.change mode known later ∧ account.fits later after

/-- On machines that fit, the first action does what the second one does, and it keeps to the
account. -/
def Covers (account : Account κ) (mode : Mode) (known : κ) (result : κ → α → Prop)
    (short long : Eval α) : Prop :=
  ∀ machine, account.fits known machine →
    short machine = long machine ∧ account.Ends mode known result (long machine)

theorem Ends.final {outcome : EStateM.Result Fault Machine α}
    (ends : account.Ends mode known result outcome) :
    ∃ later, account.change mode known later ∧ account.fits later (final outcome) := by
  cases outcome with
  | ok value after =>
    obtain ⟨later, changed, fits, -⟩ := ends
    exact ⟨later, changed, fits⟩
  | error fault after => exact ends

theorem Covers.of_ends {action : Eval α} (ends : ∀ machine, account.fits known machine →
    account.Ends mode known result (action machine)) :
    account.Covers mode known result action action :=
  fun machine fits => ⟨rfl, ends machine fits⟩

theorem Covers.pure (proper : result known value) :
    account.Covers mode known result (pure value) (pure value) :=
  .of_ends fun _ fits => ⟨known, account.any (account.refl known), fits, proper⟩

theorem Covers.throw (fault : Fault) :
    account.Covers mode known result (throw fault) (throw fault) :=
  .of_ends fun _ fits => ⟨known, account.any (account.refl known), fits⟩

theorem Covers.ofExcept {computed : Except Fault α}
    (proper : ∀ value, computed = .ok value → result known value) :
    account.Covers mode known result (ofExcept computed) (ofExcept computed) := by
  cases computed with
  | ok value => exact .pure (proper value rfl)
  | error fault => exact .throw fault

/-- What is known at the start is known to be the start of all that follows. -/
theorem Ends.from (changed : account.change mode known later)
    {outcome : EStateM.Result Fault Machine α} (ends : account.Ends mode later result outcome) :
    account.Ends mode known result outcome := by
  cases outcome with
  | ok value after =>
    obtain ⟨last, further, fits, proper⟩ := ends
    exact ⟨last, account.trans changed further, fits, proper⟩
  | error fault after =>
    obtain ⟨last, further, fits⟩ := ends
    exact ⟨last, account.trans changed further, fits⟩

theorem Covers.bind {short long : Eval α} {shortRest longRest : α → Eval β}
    (first : account.Covers mode known result short long)
    (rest : ∀ later value, account.change mode known later → result later value →
      account.Covers mode later further (shortRest value) (longRest value)) :
    account.Covers mode known further (short >>= shortRest) (long >>= longRest) := by
  intro machine fits
  obtain ⟨same, ends⟩ := first machine fits
  rw [bind_run, bind_run, same]
  cases outcome : long machine with
  | ok value after =>
    rw [outcome] at ends
    obtain ⟨later, changed, fitsAfter, proper⟩ := ends
    obtain ⟨again, ended⟩ := rest later value changed proper after fitsAfter
    exact ⟨again, ended.from changed⟩
  | error fault after =>
    rw [outcome] at ends
    exact ⟨rfl, ends⟩

/-- What covers an action keeps to the account by itself. -/
theorem Covers.plain {short long : Eval α} (covers : account.Covers mode known result short long) :
    account.Covers mode known result long long :=
  fun machine fits => ⟨rfl, (covers machine fits).2⟩

/-- An expression is evaluated in the course of whatever is going on. -/
theorem Covers.any {short long : Eval α} (covers : account.Covers .evaluating known result short long) :
    account.Covers mode known result short long := by
  intro machine fits
  obtain ⟨same, ends⟩ := covers machine fits
  refine ⟨same, ?_⟩
  cases outcome : long machine with
  | ok value after =>
    rw [outcome] at ends
    obtain ⟨later, changed, fits, proper⟩ := ends
    exact ⟨later, account.any changed, fits, proper⟩
  | error fault after =>
    rw [outcome] at ends
    obtain ⟨later, changed, fits⟩ := ends
    exact ⟨later, account.any changed, fits⟩

theorem catchDepth_covers {short long : Eval α} (covers : account.Covers mode known result short long) :
    account.Covers mode known result (catchDepth short) (catchDepth long) := by
  intro machine fits
  obtain ⟨same, ends⟩ := covers machine fits
  rw [catchDepth, catchDepth, same]
  refine ⟨rfl, ?_⟩
  cases outcome : long machine with
  | ok value after =>
    rw [outcome] at ends
    exact ends
  | error fault after =>
    rw [outcome] at ends
    cases fault <;> exact ends

theorem lookup_covers (name : String) :
    account.Covers mode known account.knows (lookup name) (lookup name) := by
  intro machine fits
  have looked : account.Covers mode known account.knows
      (ofExcept (machine.forest.get machine.current name))
      (ofExcept (machine.forest.get machine.current name)) :=
    .ofExcept fun _ found => account.found fits found
  exact looked machine fits

theorem print_covers (line : String) : account.Covers mode known unknown (print line) (print line) := by
  refine Covers.any (.of_ends fun machine fits => ?_)
  obtain ⟨later, changed, fits⟩ := account.reported (machine.output.push line) machine.events fits
  exact ⟨later, changed, fits, trivial⟩

theorem note_covers (event : Event) : account.Covers mode known unknown (note event) (note event) := by
  refine Covers.any (.of_ends fun machine fits => ?_)
  obtain ⟨later, changed, fits⟩ := account.reported machine.output (machine.events.push event) fits
  exact ⟨later, changed, fits, trivial⟩

theorem assign_covers (name : String) (proper : account.knows known value) :
    account.Covers mode known account.knows (assign name value) (assign name value) := by
  refine Covers.any (.of_ends fun machine fits => ?_)
  rw [assign_run]
  cases resolved : machine.forest.resolve machine.current name with
  | none => exact ⟨known, account.refl known, fits⟩
  | some home =>
    obtain ⟨later, changed, fits⟩ := account.assigned fits proper resolved
    exact ⟨later, changed, fits, account.keeps changed proper⟩

theorem define_covers (name : String) (proper : account.knows known value) :
    account.Covers .executing known unknown (define name value) (define name value) := by
  refine .of_ends fun machine fits => ?_
  rw [define_run]
  by_cases defined : machine.forest.isDefined machine.current name
  · rw [if_pos defined]
    exact ⟨known, account.any (account.refl known), fits⟩
  · rw [if_neg defined]
    obtain ⟨later, changed, fits⟩ := account.defined fits proper (Bool.eq_false_iff.mpr defined)
    exact ⟨later, changed, fits, trivial⟩

end Account

/-- Runs an action in a fresh scope inside another one. -/
def inside (enclosing : ScopeId) (action : Eval α) : Eval α := do
  let scope ← onScopes (Store.newScope (some enclosing))
  inScope scope action

/-- Binds names to values in the current scope, pair by pair. -/
def bindHere : List String → List Value → Eval Unit
  | name :: names, value :: values => do
    define name value
    bindHere names values
  | _, _ => return ()

/-- What a call does in its own scope. -/
def callInside (execute : Node → Eval Flow) (function : Function) (arguments : List Value) :
    Eval Flow := do
  bindHere function.params arguments
  note (.called function arguments.length)
  match function.body with
  | .block _ statements => catchDepth (executeAll execute statements)
  | _ => throw .missingPart

theorem inside_run (enclosing : ScopeId) (action : Eval α) (machine : Machine) :
    inside enclosing action machine = inScope machine.forest.size action
      { machine with forest := machine.forest.push ⟨some enclosing, []⟩ } := rfl

theorem bindHere_current (names : List String) (values : List Value) (machine : Machine) :
    (final (bindHere names values machine)).current = machine.current := by
  induction names generalizing values machine with
  | nil => rfl
  | cons name names ih =>
    cases values with
    | nil => rfl
    | cons value values =>
      rw [bindHere, bind_run, define_run]
      cases machine.forest.isDefined machine.current name with
      | true => rfl
      | false => exact ih values _

/-- Parameters are bound from outside the scope of the call as they would be inside it. -/
theorem bindParams_run (id : ScopeId) (names : List String) (values : List Value) (machine : Machine) :
    bindParams id names values machine = inScope id (bindHere names values) machine := by
  induction names generalizing values machine with
  | nil => rfl
  | cons name names ih =>
    cases values with
    | nil => rfl
    | cons value values =>
      rw [bindParams, inScope, bindHere, bind_run, bind_run, define_run, onScopes, Store.define]
      cases machine.forest.isDefined id name with
      | true => rfl
      | false => exact ih values _

theorem catchDepth_inScope (id : ScopeId) (action : Eval α) :
    catchDepth (inScope id action) = inScope id (catchDepth action) := by
  funext machine
  unfold catchDepth inScope
  dsimp only
  cases action { machine with current := id } with
  | ok value after => rfl
  | error fault after => cases fault <;> rfl

/-- A call is what it does in a fresh scope inside that of the function. -/
theorem call_eq (execute : Node → Eval Flow) (function : Function) (arguments : List Value) :
    call execute function arguments =
      if arguments.length ≠ function.arity then throw (.wrongArity function arguments.length)
      else do
        match ← inside function.closure (callInside execute function arguments) with
        | .returned value => return value
        | .normal => return .null := by
  unfold call
  by_cases wrong : arguments.length ≠ function.arity
  · rw [if_pos wrong, if_pos wrong]
    rfl
  · rw [if_neg wrong, if_neg wrong]
    funext machine
    let opened : Machine := { machine with forest := machine.forest.push ⟨some function.closure, []⟩ }
    have made : onScopes (Store.newScope (some function.closure)) machine =
        .ok machine.forest.size opened := rfl
    have here := bindHere_current function.params arguments
      { opened with current := machine.forest.size }
    dsimp only
    rw [bind_of_ok _ made, bind_run, bindParams_run, bind_run, inside, bind_of_ok _ made, inScope,
      inScope, callInside, bind_run]
    cases bound : bindHere function.params arguments { opened with current := machine.forest.size } with
    | error fault after => rfl
    | ok _ after =>
      rw [bound] at here
      obtain ⟨forest, current, output, events⟩ := after
      cases here
      dsimp only
      rw [bind_run, bind_run, note]
      cases function.body with
      | block line statements =>
        dsimp only
        rw [catchDepth_inScope]
        rfl
      | _ => rfl

namespace Account

variable {κ : Type} {account : Account κ} {known : κ} {mode : Mode} {result : κ → α → Prop}

/-- What is done in a fresh scope is, seen from outside, no more than what an expression may do. -/
theorem inside_covers {short long : Eval α} {enclosing : ScopeId} {machine : Machine}
    (fits : account.fits known machine)
    (lies : enclosing = machine.current ∨
      ∃ function, account.knows known (.function function) ∧ enclosing = function.closure)
    (carries : ∀ {last later}, (∀ value, account.knows last value → account.knows later value) →
      ∀ {value}, result last value → result later value)
    (body : ∀ inner, (∀ value, account.knows known value → account.knows inner value) →
      account.Covers .executing inner result short long) :
    inside enclosing short machine = inside enclosing long machine ∧
      account.Ends .evaluating known result (inside enclosing long machine) := by
  obtain ⟨inner, learned, inFits, left⟩ := account.entered fits lies
  obtain ⟨same, ends⟩ := body inner learned _ inFits
  rw [inside_run, inside_run, inScope, inScope]
  dsimp only
  rw [same]
  refine ⟨rfl, ?_⟩
  cases outcome : long { machine with
      forest := machine.forest.push ⟨some enclosing, []⟩
      current := machine.forest.size } with
  | ok value after =>
    rw [outcome] at ends
    obtain ⟨last, changed, fitsLast, proper⟩ := ends
    obtain ⟨later, changed, fitsLater, kept⟩ := left last after changed fitsLast
    exact ⟨later, changed, fitsLater, carries kept proper⟩
  | error fault after =>
    rw [outcome] at ends
    obtain ⟨last, changed, fitsLast⟩ := ends
    obtain ⟨later, changed, fitsLater, -⟩ := left last after changed fitsLast
    exact ⟨later, changed, fitsLater⟩

section

variable {evaluate other : Node → Eval Value} {execute another : Node → Eval Flow}

/-- Evaluation keeps to the account. -/
def Evaluates (account : Account κ) (evaluate other : Node → Eval Value) : Prop :=
  ∀ node known, account.Covers .evaluating known account.knows (evaluate node) (other node)

/-- Execution keeps to the account. -/
def Executes (account : Account κ) (execute another : Node → Eval Flow) : Prop :=
  ∀ node known, account.Covers .executing known account.knowsFlow (execute node) (another node)

theorem knowsFlow_carries {last later : κ}
    (kept : ∀ value, account.knows last value → account.knows later value) {flow : Flow}
    (proper : account.knowsFlow last flow) : account.knowsFlow later flow := by
  cases flow with
  | normal => trivial
  | returned value => exact kept value proper

theorem executeAll_covers (executed : account.Executes execute another) (statements : List Node)
    (known : κ) : account.Covers .executing known account.knowsFlow (executeAll execute statements)
      (executeAll another statements) := by
  induction statements generalizing known with
  | nil => exact .pure trivial
  | cons statement rest ih =>
    refine .bind (executed statement known) fun later flow _ proper => ?_
    cases flow with
    | normal => exact ih later
    | returned value => exact .pure proper

theorem evaluateAll_covers (evaluated : account.Evaluates evaluate other) (nodes : List Node)
    (found : Array Value) (known : κ) (proper : ∀ value ∈ found.toList, account.knows known value) :
    account.Covers .evaluating known
      (fun later values => ∀ value ∈ values.toList, account.knows later value)
      (evaluateAll evaluate found nodes) (evaluateAll other found nodes) := by
  induction nodes generalizing found known with
  | nil => exact .pure proper
  | cons node rest ih =>
    refine .bind (evaluated node known) fun later value changed knows => ih _ later ?_
    intro known member
    rw [Array.toList_push, List.mem_append, List.mem_singleton] at member
    rcases member with old | rfl
    · exact account.keeps changed (proper known old)
    · exact knows

theorem bindHere_covers (names : List String) (values : List Value) (known : κ)
    (proper : ∀ value ∈ values, account.knows known value) :
    account.Covers .executing known unknown (bindHere names values) (bindHere names values) := by
  induction names generalizing values known with
  | nil => exact .pure trivial
  | cons name names ih =>
    cases values with
    | nil => exact .pure trivial
    | cons value values =>
      refine .bind (define_covers name (proper value (by simp))) fun later _ changed _ => ?_
      exact ih values later fun other member => account.keeps changed (proper other (by simp [member]))

theorem call_covers (executed : account.Executes execute another) (function : Function)
    (values : List Value) (known : κ) (callee : account.knows known (.function function))
    (proper : ∀ value ∈ values, account.knows known value) :
    account.Covers .evaluating known account.knows (call execute function values)
      (call another function values) := by
  rw [call_eq, call_eq]
  split
  · exact .throw _
  · have body : ∀ inner, (∀ value, account.knows known value → account.knows inner value) →
        account.Covers .executing inner account.knowsFlow (callInside execute function values)
          (callInside another function values) := by
      intro inner learned
      refine .bind (bindHere_covers _ _ inner fun value member => learned value (proper value member))
        fun later _ _ _ => .bind (note_covers _) fun later _ _ _ => ?_
      split
      · exact catchDepth_covers (executeAll_covers executed _ later)
      · exact .throw _
    have called : account.Covers .evaluating known account.knowsFlow
        (inside function.closure (callInside execute function values))
        (inside function.closure (callInside another function values)) :=
      fun _ fits => inside_covers fits (.inr ⟨function, callee, rfl⟩) knowsFlow_carries body
    refine .bind called fun later flow _ proper => ?_
    cases flow with
    | normal => exact .pure (account.scalar later _)
    | returned value => exact .pure proper

theorem matchArms_covers (evaluated : account.Evaluates evaluate other) (subject : Value)
    (arms : List Node) (known : κ) : account.Covers .evaluating known account.knows
      (matchArms evaluate subject arms) (matchArms other subject arms) := by
  induction arms generalizing known with
  | nil => exact .throw _
  | cons arm rest ih =>
    cases arm with
    | matchArm line pattern body =>
      refine .bind (evaluated pattern known) fun later value _ _ => ?_
      split
      · exact evaluated body later
      · exact ih later
    | _ => exact .throw _

/-- The turns of a loop do no more than its body does. -/
theorem repeatWhile_covers (evaluated : account.Evaluates evaluate other) (condition body : Node)
    (executed : ∀ known, account.Covers mode known account.knowsFlow (execute body) (another body))
    (turns : Nat) (known : κ) : account.Covers mode known account.knowsFlow
      (repeatWhile evaluate execute condition body turns)
      (repeatWhile other another condition body turns) := by
  induction turns generalizing known with
  | zero => exact .throw _
  | succ turns ih =>
    refine .bind (evaluated condition known).any fun later value _ _ => ?_
    split
    · refine .bind (executed later) fun last flow _ proper => ?_
      cases flow with
      | normal => exact ih last
      | returned value => exact .pure proper
    · exact .pure trivial

theorem evaluateNode_covers (evaluated : account.Evaluates evaluate other)
    (executed : account.Executes execute another) :
    account.Evaluates (evaluateNode evaluate execute) (evaluateNode other another) := by
  intro node known
  cases node with
  | literal line value => exact .pure (account.scalar known value)
  | binary line operator left right =>
    refine .bind (evaluated left known) fun later first _ _ => .bind (evaluated right later)
      fun last second _ _ => .ofExcept fun value computed => ?_
    obtain ⟨scalar, rfl⟩ := Value.binary_scalar computed
    exact account.scalar last scalar
  | unary line operator operand =>
    refine .bind (evaluated operand known) fun later value _ _ => .ofExcept fun value computed => ?_
    obtain ⟨scalar, rfl⟩ := Value.unary_scalar computed
    exact account.scalar later scalar
  | reference line name => exact lookup_covers name
  | assignment line name value =>
    exact .bind (evaluated value known) fun later result _ proper => assign_covers name proper
  | call line callee arguments =>
    refine .bind (evaluated callee known) fun later value _ proper => ?_
    cases value with
    | scalar other => exact .throw _
    | function function =>
      refine .bind (evaluateAll_covers evaluated arguments #[] later (by simp))
        fun last values changed each => ?_
      exact call_covers executed function _ last (account.keeps changed proper) each
  | matching line subject arms =>
    exact .bind (evaluated subject known) fun later value _ _ => matchArms_covers evaluated value arms later
  | _ => exact .throw _

theorem innerScope_covers (name : String) (params : List String) (body : Node) (known : κ) :
    account.Covers mode known
      (fun later closure => account.knows later (.function ⟨name, params, body, closure⟩))
      innerScope innerScope := by
  refine Covers.any (.of_ends fun machine fits => ?_)
  obtain ⟨later, changed, fits, known⟩ := account.closed name params body fits
  exact ⟨later, changed, fits, known⟩

theorem block_covers (executed : account.Executes execute another) (statements : List Node)
    (known : κ) : account.Covers mode known account.knowsFlow
      (do let scope ← innerScope; inScope scope (executeAll execute statements))
      (do let scope ← innerScope; inScope scope (executeAll another statements)) := by
  refine Covers.any fun machine fits => ?_
  exact inside_covers fits (.inl rfl) knowsFlow_carries fun inner _ =>
    executeAll_covers executed statements inner

theorem declare_covers (name : String) (proper : account.knows known value) :
    account.Covers .executing known account.knowsFlow (do define name value; return .normal)
      (do define name value; return .normal) :=
  .bind (define_covers name proper) fun _ _ _ _ => .pure trivial

theorem executeNode_covers (evaluated : account.Evaluates evaluate other)
    (executed : account.Executes execute another) (turns : Nat) :
    account.Executes (executeNode evaluate execute turns) (executeNode other another turns) := by
  intro node known
  cases node with
  | exprStmt line expression =>
    exact .bind (evaluated expression known).any fun _ _ _ _ => .pure trivial
  | varDecl line name initializer =>
    rw [executeNode, executeNode]
    split
    · exact .bind (.pure (account.scalar known _)) fun _ _ _ proper => declare_covers name proper
    · exact .bind (evaluated initializer known).any fun _ _ _ proper => declare_covers name proper
  | printStmt line expression =>
    exact .bind (evaluated expression known).any fun _ _ _ _ => .bind (print_covers _)
      fun _ _ _ _ => .pure trivial
  | ifStmt line condition thenBranch elseBranch =>
    refine .bind (evaluated condition known).any fun later value _ _ => ?_
    split
    · exact executed thenBranch later
    · split
      · exact .pure trivial
      · exact executed elseBranch later
  | whileStmt line condition body =>
    exact repeatWhile_covers evaluated condition body (executed body) turns known
  | block line statements => exact block_covers executed statements known
  | fnDecl line name params body =>
    exact .bind (innerScope_covers name params body known) fun later closure _ proper =>
      declare_covers name proper
  | returnStmt line value =>
    rw [executeNode, executeNode]
    split
    · exact .pure (account.scalar known _)
    · exact .bind (evaluated value known).any fun _ _ _ proper => .pure proper
  | _ => exact .throw _

end

section

variable {check : Machine → Bool}

theorem checked_covers (passes : ∀ known machine, account.fits known machine → check machine)
    {short long : Eval α} (inner : account.Covers mode known result short long) :
    account.Covers mode known result (checked check short) long := by
  intro machine fits
  obtain ⟨same, ends⟩ := inner machine fits
  obtain ⟨later, -, fitsFinal⟩ := ends.final
  refine ⟨?_, ends⟩
  rw [checked, same, if_pos (passes known machine fits), if_pos (passes later _ fitsFinal)]

/-- At every depth, a run keeps to the account, and all checks that follow from it pass. -/
theorem within_covers (passes : ∀ known machine, account.fits known machine → check machine)
    (turns depth : Nat) :
    account.Evaluates (evaluateChecked check turns depth) (evaluateWithin turns depth) ∧
      account.Executes (executeChecked check turns depth) (executeWithin turns depth) := by
  induction depth with
  | zero =>
    constructor
    · intro node known
      exact .throw _
    · intro node known
      exact .throw _
  | succ depth ih =>
    obtain ⟨evaluated, executed⟩ := ih
    constructor
    · intro node known
      exact checked_covers passes (evaluateNode_covers evaluated executed node known)
    · intro node known
      exact checked_covers passes (executeNode_covers evaluated executed turns node known)

theorem evaluateWithin_covers (account : Account κ) (turns depth : Nat) :
    account.Evaluates (evaluateWithin turns depth) (evaluateWithin turns depth) :=
  fun node known => ((within_covers (fun _ _ _ => rfl) turns depth).1 node known).plain

theorem executeWithin_covers (account : Account κ) (turns depth : Nat) :
    account.Executes (executeWithin turns depth) (executeWithin turns depth) :=
  fun node known => ((within_covers (fun _ _ _ => rfl) turns depth).2 node known).plain

/-- A statement that declares nothing does no more than an expression may do. -/
theorem quiet_covers (turns depth : Nat) (quiet : node.mayDeclare = false) (known : κ) :
    account.Covers .evaluating known account.knowsFlow (executeWithin turns depth node)
      (executeWithin turns depth node) := by
  induction depth generalizing node known with
  | zero => exact .throw _
  | succ depth ih =>
    have evaluated := account.evaluateWithin_covers turns depth
    have executed := account.executeWithin_covers turns depth
    cases node with
    | exprStmt line expression => exact .bind (evaluated _ known) fun _ _ _ _ => .pure trivial
    | printStmt line expression =>
      exact .bind (evaluated _ known) fun _ _ _ _ => .bind (print_covers _) fun _ _ _ _ => .pure trivial
    | ifStmt line condition thenBranch elseBranch =>
      obtain ⟨branch, otherwise⟩ := Bool.or_eq_false_iff.mp quiet
      refine .bind (evaluated _ known) fun later value _ _ => ?_
      split
      · exact ih branch later
      · split
        · exact .pure trivial
        · exact ih otherwise later
    | whileStmt line condition body => exact repeatWhile_covers evaluated condition body (ih quiet) turns known
    | block line statements => exact block_covers executed _ known
    | returnStmt line value =>
      rw [executeWithin, executeNode]
      split
      · exact .pure (account.scalar known _)
      · exact .bind (evaluated _ known) fun _ _ _ proper => .pure proper
    | varDecl => cases quiet
    | fnDecl => cases quiet
    | _ => exact .throw _

theorem interpret_covers (passes : ∀ known machine, account.fits known machine → check machine)
    (limits : Limits) (program : List Node) (known : κ) :
    account.Covers .executing known unknown (interpretChecked check limits program)
      (interpret limits program) := by
  have executed := (within_covers passes limits.turns limits.depth).2
  induction program generalizing known with
  | nil => exact .pure trivial
  | cons statement rest ih =>
    refine .bind (catchDepth_covers (executed statement known)) fun later flow _ _ => ?_
    cases flow with
    | normal => exact ih later
    | returned value => exact note_covers _

end

theorem evaluate_ends (account : Account κ) (limits : Limits) (node : Node)
    (fits : account.fits known machine) :
    account.Ends .evaluating known account.knows (evaluate limits node machine) :=
  (account.evaluateWithin_covers limits.turns limits.depth node known machine fits).2

theorem execute_ends (account : Account κ) (limits : Limits) (node : Node)
    (fits : account.fits known machine) :
    account.Ends .executing known account.knowsFlow (execute limits node machine) :=
  (account.executeWithin_covers limits.turns limits.depth node known machine fits).2

theorem apply_ends (account : Account κ) (limits : Limits) (callee : account.knows known value)
    (proper : ∀ argument ∈ arguments, account.knows known argument) (fits : account.fits known machine) :
    account.Ends .evaluating known account.knows (apply limits value arguments machine) := by
  cases value with
  | scalar other => exact ⟨known, account.refl known, fits⟩
  | function function =>
    have executed := account.executeWithin_covers limits.turns limits.depth
    exact (call_covers executed function arguments known callee proper machine fits).2

theorem interpret_ends (account : Account κ) (limits : Limits) (program : List Node)
    (fits : account.fits known machine) :
    ∃ later, account.change .executing known later ∧
      account.fits later (Script.interpret limits program machine).2 := by
  have ends := (interpret_covers (fun _ _ _ => rfl) limits program known machine fits).2.final
  rw [Script.interpret]
  generalize Eval.interpret limits program machine = outcome at ends
  cases outcome with
  | ok _ after => exact ends
  | error fault after => exact ends

theorem run_ends (account : Account κ) (limits : Limits) (source : String)
    (fits : account.fits known machine) :
    ∃ later, account.change .executing known later ∧
      account.fits later (Script.run limits source machine).2 := by
  rw [Script.run]
  split
  · exact ⟨known, account.any (account.refl known), fits⟩
  · exact account.interpret_ends limits _ fits

end Account

end Eval

end Scriptlet
