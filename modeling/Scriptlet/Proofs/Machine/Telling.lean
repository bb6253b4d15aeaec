import Scriptlet.Proofs.Machine.Chronicle

/-! Runs that tell what they do. Each elementary step of the machine is taken by the machine's own action
and then added to the chronicle; apart from that, everything is evaluated and executed as always. So a
run that is told ends like the run, and its chronicle is one in which each deed was allowed. -/
namespace Scriptlet

open Scriptlet.Action

/-- A step of a run that is told. -/
abbrev Telling := EStateM Fault Chronicle

namespace Telling

/-- Takes a step of the machine and tells it by its result. -/
def step (deed : α → Deed) (action : Eval α) : Telling α := fun chronicle =>
  match action chronicle.machine with
  | .ok value after => .ok value (chronicle.add (deed value) after)
  | .error fault after => .error fault (chronicle.add (.failed fault) after)

/-- Computes a value. -/
def find (action : Eval Value) : Telling Value :=
  step .found action

def print (line : String) : Telling Unit :=
  step (fun _ => .printed line) (Eval.print line)

def note (event : Event) : Telling Unit :=
  step (fun _ => .noted event) (Eval.note event)

def assign (name : String) (value : Value) : Telling Value :=
  step (fun _ => .assigned name value) (Eval.assign name value)

def define (name : String) (value : Value) : Telling Unit := fun chronicle =>
  step (fun _ => .defined chronicle.machine.current name value) (Eval.define name value) chronicle

/-- Opens a scope inside another one. -/
def openScope (outer : ScopeId) : Telling ScopeId :=
  step (fun _ => .opened outer) (Eval.onScopes (Store.newScope (some outer)))

/-- Opens a scope inside the current one. -/
def innerScope : Telling ScopeId := fun chronicle =>
  step (fun _ => .opened chronicle.machine.current) Eval.innerScope chronicle

/-- Makes a function with a scope of its own inside the current one. -/
def declare (name : String) (params : List String) (body : Node) : Telling ScopeId :=
  step (fun closure => .declared ⟨name, params, body, closure⟩) Eval.innerScope

def moveTo (id : ScopeId) (chronicle : Chronicle) : Chronicle :=
  chronicle.add (.moved id) { chronicle.machine with current := id }

def inScope (id : ScopeId) (action : Telling α) : Telling α := fun chronicle =>
  let previous := chronicle.machine.current
  match action (moveTo id chronicle) with
  | .ok value after => .ok value (moveTo previous after)
  | .error fault after => .error fault (moveTo previous after)

def catchDepth (action : Telling α) : Telling α := fun chronicle =>
  match action chronicle with
  | .error .depthExceeded after => .error .stackOverflow after
  | result => result

section

variable (evaluate : Node → Telling Value) (execute : Node → Telling Flow)

def executeAll : List Node → Telling Flow
  | [] => return .normal
  | statement :: rest => do
    match ← execute statement with
    | .returned value => return .returned value
    | .normal => executeAll rest

def evaluateAll (found : Array Value) : List Node → Telling (Array Value)
  | [] => return found
  | node :: rest => do evaluateAll (found.push (← evaluate node)) rest

def bindParams (id : ScopeId) : List String → List Value → Telling Unit
  | name :: names, value :: values => do
    step (fun _ => .defined id name value) (Eval.onScopes (Store.define id name value))
    bindParams id names values
  | _, _ => return ()

def call (function : Function) (arguments : List Value) : Telling Value := do
  if arguments.length ≠ function.arity then throw (.wrongArity function arguments.length)
  let scope ← openScope function.closure
  bindParams scope function.params arguments
  note (.called function arguments.length)
  match function.body with
  | .block _ statements =>
    match ← catchDepth (inScope scope (executeAll execute statements)) with
    | .returned value => return value
    | .normal => return .null
  | _ => throw .missingPart

def matchArms (subject : Value) : List Node → Telling Value
  | [] => throw (.noMatch subject)
  | .matchArm _ pattern body :: rest => do
    if subject.equal (← evaluate pattern) then evaluate body else matchArms subject rest
  | _ :: _ => throw .missingPart

def repeatWhile (condition body : Node) : (turns : Nat) → Telling Flow
  | 0 => throw .unfinished
  | turns + 1 => do
    if (← evaluate condition).truthy then
      match ← execute body with
      | .returned value => return .returned value
      | .normal => repeatWhile condition body turns
    else return .normal

def evaluateNode : Node → Telling Value
  | .literal _ value => return .scalar value
  | .binary _ operator left right => do
    let first ← evaluate left
    let second ← evaluate right
    find (Eval.ofExcept (Value.binary operator first second))
  | .unary _ operator operand => do
    let value ← evaluate operand
    find (Eval.ofExcept (Value.unary operator value))
  | .reference _ name => find (Eval.lookup name)
  | .assignment _ name value => do
    let result ← evaluate value
    assign name result
  | .call _ callee arguments => do
    match ← evaluate callee with
    | .function function =>
      let values ← evaluateAll evaluate #[] arguments
      call execute function values.toList
    | other => throw (.notCallable other)
  | .matching _ subject arms => do
    let value ← evaluate subject
    matchArms evaluate value arms
  | node => throw (.unhandledExpression node)

def executeNode (turns : Nat) : Node → Telling Flow
  | .exprStmt _ expression => do
    let _ ← evaluate expression
    return .normal
  | .varDecl _ name initializer => do
    let value ← if initializer.isAbsent then pure .null else evaluate initializer
    define name value
    return .normal
  | .printStmt _ expression => do
    let value ← evaluate expression
    print value.display
    return .normal
  | .ifStmt _ condition thenBranch elseBranch => do
    if (← evaluate condition).truthy then execute thenBranch
    else if elseBranch.isAbsent then return .normal
    else execute elseBranch
  | .whileStmt _ condition body => repeatWhile evaluate execute condition body turns
  | .block _ statements => do
    let scope ← innerScope
    inScope scope (executeAll execute statements)
  | .fnDecl _ name params body => do
    let closure ← declare name params body
    define name (.function ⟨name, params, body, closure⟩)
    return .normal
  | .returnStmt _ value => do
    if value.isAbsent then return .returned .null
    else return .returned (← evaluate value)
  | .forStmt .. => throw .unexpandedLoop
  | node => throw (.unhandledStatement node)

end

mutual

/-- Evaluates an expression, and tells the value that was found. -/
def evaluateWithin (turns : Nat) : (depth : Nat) → Node → Telling Value
  | 0, _ => throw .depthExceeded
  | depth + 1, node => do
    let value ← evaluateNode (evaluateWithin turns depth) (executeWithin turns depth) node
    find (pure value)

def executeWithin (turns : Nat) : (depth : Nat) → Node → Telling Flow
  | 0, _ => throw .depthExceeded
  | depth + 1, node => executeNode (evaluateWithin turns depth) (executeWithin turns depth) turns node

end

def interpret (limits : Limits) : List Node → Telling Unit
  | [] => return ()
  | statement :: rest => do
    match ← catchDepth (executeWithin limits.turns limits.depth statement) with
    | .returned value => note (.discarded value)
    | .normal => interpret limits rest

/-- What is left of an outcome when nothing is told. -/
def erase : EStateM.Result Fault Chronicle α → EStateM.Result Fault Machine α
  | .ok value chronicle => .ok value chronicle.machine
  | .error fault chronicle => .error fault chronicle.machine

variable {chronicle later : Chronicle} {id : ScopeId}
variable {result : Chronicle → α → Prop} {further : Chronicle → β → Prop}

/-- Any result will do. -/
def unknown (_ : Chronicle) (_ : α) : Prop :=
  True

/-- What the flow carries is known. -/
def knowsFlow (chronicle : Chronicle) : Flow → Prop
  | .normal => True
  | .returned value => chronicle.Knows value

/-- A chronicle goes on properly until the end, and the result is as it must be. -/
def Ends (chronicle : Chronicle) (result : Chronicle → α → Prop) :
    EStateM.Result Fault Chronicle α → Prop
  | .ok value later => later.Told ∧ chronicle.Leads later ∧ result later value
  | .error _ later => later.Told ∧ chronicle.Leads later

/-- The first action does, and tells properly, what the second one does. -/
def Tells (chronicle : Chronicle) (result : Chronicle → α → Prop) (telling : Telling α)
    (action : Eval α) : Prop :=
  chronicle.Told → erase (telling chronicle) = action chronicle.machine ∧
    Ends chronicle result (telling chronicle)

/-- What is told from a later point on is told from an earlier one on. -/
theorem Ends.from (leads : chronicle.Leads later) {outcome : EStateM.Result Fault Chronicle α}
    (ends : Ends later result outcome) : Ends chronicle result outcome := by
  cases outcome with
  | ok value last =>
    obtain ⟨told, goesOn, proper⟩ := ends
    exact ⟨told, leads.trans goesOn, proper⟩
  | error fault last =>
    obtain ⟨told, goesOn⟩ := ends
    exact ⟨told, leads.trans goesOn⟩

namespace Tells

theorem pure (proper : result chronicle value) :
    Tells chronicle result (pure value) (pure value) :=
  fun told => ⟨rfl, told, .refl chronicle, proper⟩

theorem throw (fault : Fault) : Tells chronicle result (throw fault) (throw fault) :=
  fun told => ⟨rfl, told, .refl chronicle⟩

theorem bind {telling : Telling α} {action : Eval α} {toldRest : α → Telling β} {rest : α → Eval β}
    (first : Tells chronicle result telling action)
    (next : ∀ later value, chronicle.Leads later → result later value →
      Tells later further (toldRest value) (rest value)) :
    Tells chronicle further (telling >>= toldRest) (action >>= rest) := by
  intro told
  obtain ⟨same, ends⟩ := first told
  rw [bind_run, bind_run, ← same]
  cases outcome : telling chronicle with
  | ok value later =>
    rw [outcome] at ends
    obtain ⟨toldLater, leads, proper⟩ := ends
    obtain ⟨again, ended⟩ := next later value leads proper toldLater
    exact ⟨again, ended.from leads⟩
  | error fault later =>
    rw [outcome] at ends
    exact ⟨rfl, ends⟩

/-- A step that does what its deed says. -/
theorem doing {deed : α → Deed} {action : Eval α}
    (runs : action chronicle.machine = .ok value ((deed value).after chronicle.machine))
    (allowed : chronicle.Allows (deed value))
    (proper : result (chronicle.add (deed value) ((deed value).after chronicle.machine)) value) :
    Tells chronicle result (step deed action) action := by
  intro told
  rw [step, runs]
  exact ⟨rfl, .next told allowed, Chronicle.leads_add _ _ _, proper⟩

/-- A step that fails and leaves the machine as it was. -/
theorem failing (fault : Fault) {deed : α → Deed} {action : Eval α}
    (runs : action chronicle.machine = .error fault chronicle.machine) :
    Tells chronicle result (step deed action) action := by
  intro told
  have failed : chronicle.Allows (.failed fault) := trivial
  rw [step, runs]
  exact ⟨rfl, .next told failed, Chronicle.leads_add _ _ _⟩

theorem catchDepth {telling : Telling α} {action : Eval α}
    (tells : Tells chronicle result telling action) :
    Tells chronicle result (Telling.catchDepth telling) (Eval.catchDepth action) := by
  intro told
  obtain ⟨same, ends⟩ := tells told
  rw [Telling.catchDepth, Eval.catchDepth, ← same]
  cases outcome : telling chronicle with
  | ok value later =>
    rw [outcome] at ends
    exact ⟨rfl, ends⟩
  | error fault later =>
    rw [outcome] at ends
    cases fault <;> exact ⟨rfl, ends⟩

end Tells

/-- To move to a scope in which something may be executed is a deed like any other. -/
theorem told_moveTo (told : chronicle.Told) (free : chronicle.Free id) :
    (moveTo id chronicle).Told ∧ chronicle.Leads (moveTo id chronicle) := by
  have allowed : chronicle.Allows (.moved id) := free
  exact ⟨.next told allowed, Chronicle.leads_add _ _ _⟩

theorem Tells.inScope {telling : Telling α} {action : Eval α} (free : chronicle.Free id)
    (carries : ∀ {last later value}, last.Leads later → result last value → result later value)
    (inner : Tells (moveTo id chronicle) result telling action) :
    Tells chronicle result (Telling.inScope id telling) (Eval.inScope id action) := by
  intro told
  obtain ⟨toldThere, goes⟩ := told_moveTo told free
  obtain ⟨same, ends⟩ := inner toldThere
  have comesBack : ∀ last, last.Told → (moveTo id chronicle).Leads last →
      (moveTo chronicle.machine.current last).Told ∧
        last.Leads (moveTo chronicle.machine.current last) :=
    fun last toldLast leads => told_moveTo toldLast (told.sound.current.grow (goes.trans leads))
  have plain : action { chronicle.machine with current := id } = erase (telling (moveTo id chronicle)) :=
    same.symm
  rw [Telling.inScope, Eval.inScope, plain]
  cases outcome : telling (moveTo id chronicle) with
  | ok value last =>
    rw [outcome] at ends
    obtain ⟨toldLast, leads, proper⟩ := ends
    obtain ⟨toldBack, back⟩ := comesBack last toldLast leads
    exact ⟨rfl, toldBack, (goes.trans leads).trans back, carries back proper⟩
  | error fault last =>
    rw [outcome] at ends
    obtain ⟨toldLast, leads⟩ := ends
    obtain ⟨toldBack, back⟩ := comesBack last toldLast leads
    exact ⟨rfl, toldBack, (goes.trans leads).trans back⟩

section

/-- What is computed from known values is told with its value. -/
theorem find_tells {action : Eval Value} (computed : Except Fault Value)
    (finds : action chronicle.machine = Eval.ofExcept computed chronicle.machine)
    (known : ∀ value, computed = .ok value → chronicle.Knows value) :
    Tells chronicle Chronicle.Knows (find action) action := by
  cases computed with
  | ok value =>
    have knows := known value rfl
    exact .doing finds knows (knows.grow (Chronicle.leads_add _ _ _))
  | error fault => exact .failing fault finds

theorem lookup_tells (name : String) :
    Tells chronicle Chronicle.Knows (find (Eval.lookup name)) (Eval.lookup name) := by
  intro told
  refine find_tells (chronicle.machine.forest.get chronicle.machine.current name) rfl ?_ told
  intro value found
  obtain ⟨home, scope, -, there, bound⟩ := Forest.get_eq_ok found
  exact told.sound.stored scope (Array.mem_of_getElem? there) _ bound

theorem print_tells (line : String) : Tells chronicle unknown (print line) (Eval.print line) :=
  .doing rfl trivial trivial

theorem note_tells (event : Event) : Tells chronicle unknown (note event) (Eval.note event) :=
  .doing rfl trivial trivial

theorem assign_tells (name : String) (known : chronicle.Knows value) :
    Tells chronicle Chronicle.Knows (assign name value) (Eval.assign name value) := by
  cases resolved : chronicle.machine.forest.resolve chronicle.machine.current name with
  | none =>
    refine .failing (.undefined name) ?_
    rw [Eval.assign_run, resolved]
  | some home =>
    refine .doing ?_ known (known.grow (Chronicle.leads_add _ _ _))
    rw [Eval.assign_run, Deed.after, resolved]

/-- A name is bound in a scope in which something may be executed. -/
theorem store_tells (free : chronicle.Free id) (name : String) (known : chronicle.Knows value) :
    Tells chronicle unknown
      (step (fun _ => .defined id name value) (Eval.onScopes (Store.define id name value)))
      (Eval.onScopes (Store.define id name value)) := by
  cases defined : chronicle.machine.forest.isDefined id name with
  | true =>
    refine .failing (.duplicate name) ?_
    simp [Eval.onScopes, Store.define, defined]
  | false =>
    have runs : Eval.onScopes (Store.define id name value) chronicle.machine =
        .ok () ((Deed.defined id name value).after chronicle.machine) := by
      simp [Eval.onScopes, Store.define, defined, Deed.after]
    exact .doing runs ⟨free, known, defined⟩ trivial

theorem define_tells (name : String) (known : chronicle.Knows value) :
    Tells chronicle unknown (define name value) (Eval.define name value) :=
  fun told => store_tells told.sound.current name known told

theorem opened_free (told : chronicle.Told) (outer : ScopeId) (machine : Machine) :
    (chronicle.add (.opened outer) machine).Free chronicle.machine.forest.size := by
  refine ⟨.opened outer, ?_, fun _ => by rintro ⟨⟩⟩
  rw [told.sound.recorded.size]
  exact List.getElem?_concat_length

theorem openScope_tells (lies : chronicle.Allows (.opened outer)) :
    Tells chronicle Chronicle.Free (openScope outer)
      (Eval.onScopes (Store.newScope (some outer))) := by
  intro told
  exact Tells.doing rfl lies (opened_free told outer _) told

theorem innerScope_tells : Tells chronicle Chronicle.Free innerScope Eval.innerScope := by
  have lies : chronicle.Allows (.opened chronicle.machine.current) := .inl rfl
  exact openScope_tells lies

theorem declare_tells (name : String) (params : List String) (body : Node) :
    Tells chronicle (fun later closure => later.Knows (.function ⟨name, params, body, closure⟩))
      (declare name params body) Eval.innerScope :=
  .doing rfl rfl ⟨_, List.mem_cons_self, rfl⟩

end

section

variable {evaluated : Node → Telling Value} {executed : Node → Telling Flow}
variable {evaluate : Node → Eval Value} {execute : Node → Eval Flow}

/-- Evaluation is told. -/
def Evaluates (evaluated : Node → Telling Value) (evaluate : Node → Eval Value) : Prop :=
  ∀ node chronicle, Tells chronicle Chronicle.Knows (evaluated node) (evaluate node)

/-- Execution is told. -/
def Executes (executed : Node → Telling Flow) (execute : Node → Eval Flow) : Prop :=
  ∀ node chronicle, Tells chronicle knowsFlow (executed node) (execute node)

theorem knowsFlow_grow {flow : Flow} (leads : chronicle.Leads later)
    (known : knowsFlow chronicle flow) : knowsFlow later flow := by
  cases flow with
  | normal => trivial
  | returned value => exact known.grow leads

theorem executeAll_tells (tells : Executes executed execute) (statements : List Node)
    (chronicle : Chronicle) :
    Tells chronicle knowsFlow (executeAll executed statements) (Eval.executeAll execute statements) := by
  induction statements generalizing chronicle with
  | nil => exact .pure trivial
  | cons statement rest ih =>
    refine .bind (tells statement chronicle) fun later flow _ known => ?_
    cases flow with
    | normal => exact ih later
    | returned value => exact .pure known

theorem evaluateAll_tells (tells : Evaluates evaluated evaluate) (nodes : List Node)
    (found : Array Value) (chronicle : Chronicle)
    (known : ∀ value ∈ found.toList, chronicle.Knows value) :
    Tells chronicle (fun later values => ∀ value ∈ values.toList, later.Knows value)
      (evaluateAll evaluated found nodes) (Eval.evaluateAll evaluate found nodes) := by
  induction nodes generalizing found chronicle with
  | nil => exact .pure known
  | cons node rest ih =>
    refine .bind (tells node chronicle) fun later value leads knows => ih _ later ?_
    intro other member
    rw [Array.toList_push, List.mem_append, List.mem_singleton] at member
    rcases member with old | rfl
    · exact (known other old).grow leads
    · exact knows

theorem bindParams_tells (names : List String) (values : List Value) (chronicle : Chronicle)
    (free : chronicle.Free id) (known : ∀ value ∈ values, chronicle.Knows value) :
    Tells chronicle unknown (bindParams id names values) (Eval.bindParams id names values) := by
  induction names generalizing values chronicle with
  | nil => exact .pure trivial
  | cons name names ih =>
    cases values with
    | nil => exact .pure trivial
    | cons value values =>
      refine .bind (store_tells free name (known value List.mem_cons_self)) fun later _ leads _ => ?_
      refine ih values later (free.grow leads) fun other member => ?_
      exact (known other (List.mem_cons_of_mem value member)).grow leads

theorem inScope_tells {telling : Telling Flow} {action : Eval Flow} (free : chronicle.Free id)
    (inner : ∀ later, Tells later knowsFlow telling action) :
    Tells chronicle knowsFlow (inScope id telling) (Eval.inScope id action) :=
  .inScope free knowsFlow_grow (inner _)

theorem call_tells (tells : Executes executed execute) (function : Function) (values : List Value)
    (chronicle : Chronicle) (callee : chronicle.Knows (.function function))
    (known : ∀ value ∈ values, chronicle.Knows value) :
    Tells chronicle Chronicle.Knows (call executed function values)
      (Eval.call execute function values) := by
  rw [call, Eval.call]
  split
  · exact .throw _
  · have lies : chronicle.Allows (.opened function.closure) := .inr ⟨function, callee, rfl⟩
    refine .bind (openScope_tells lies) fun opened scope goes free => ?_
    have still : ∀ value ∈ values, opened.Knows value := fun value member =>
      (known value member).grow goes
    refine .bind (bindParams_tells _ _ opened free still) fun bound _ goes _ => ?_
    refine .bind (note_tells _) fun noted _ further _ => ?_
    cases function.body with
    | block line statements =>
      have body := inScope_tells (free.grow (goes.trans further)) fun later =>
        executeAll_tells tells statements later
      refine .bind body.catchDepth fun later flow _ known => ?_
      cases flow with
      | normal => exact .pure trivial
      | returned value => exact .pure known
    | _ => exact .throw _

theorem matchArms_tells (tells : Evaluates evaluated evaluate) (subject : Value) (arms : List Node)
    (chronicle : Chronicle) :
    Tells chronicle Chronicle.Knows (matchArms evaluated subject arms)
      (Eval.matchArms evaluate subject arms) := by
  induction arms generalizing chronicle with
  | nil => exact .throw _
  | cons arm rest ih =>
    cases arm with
    | matchArm line pattern body =>
      refine .bind (tells pattern chronicle) fun later value _ _ => ?_
      split
      · exact tells body later
      · exact ih later
    | _ => exact .throw _

theorem repeatWhile_tells (tells : Evaluates evaluated evaluate) (executes : Executes executed execute)
    (condition body : Node) (turns : Nat) (chronicle : Chronicle) :
    Tells chronicle knowsFlow (repeatWhile evaluated executed condition body turns)
      (Eval.repeatWhile evaluate execute condition body turns) := by
  induction turns generalizing chronicle with
  | zero => exact .throw _
  | succ turns ih =>
    refine .bind (tells condition chronicle) fun later value _ _ => ?_
    split
    · refine .bind (executes body later) fun last flow _ known => ?_
      cases flow with
      | normal => exact ih last
      | returned value => exact .pure known
    · exact .pure trivial

theorem evaluateNode_tells (tells : Evaluates evaluated evaluate) (executes : Executes executed execute) :
    Evaluates (evaluateNode evaluated executed) (Eval.evaluateNode evaluate execute) := by
  intro node chronicle
  cases node with
  | literal line value => exact .pure trivial
  | binary line operator left right =>
    refine .bind (tells left chronicle) fun later first _ _ => .bind (tells right later)
      fun last second _ _ => find_tells _ rfl fun value computed => ?_
    obtain ⟨scalar, rfl⟩ := Value.binary_scalar computed
    trivial
  | unary line operator operand =>
    refine .bind (tells operand chronicle) fun later value _ _ => find_tells _ rfl
      fun value computed => ?_
    obtain ⟨scalar, rfl⟩ := Value.unary_scalar computed
    trivial
  | reference line name => exact lookup_tells name
  | assignment line name value =>
    exact .bind (tells value chronicle) fun later result _ known => assign_tells name known
  | call line callee arguments =>
    refine .bind (tells callee chronicle) fun later value _ known => ?_
    cases value with
    | scalar other => exact .throw _
    | function function =>
      refine .bind (evaluateAll_tells tells arguments #[] later (by simp)) fun last values leads each => ?_
      exact call_tells executes function _ last (known.grow leads) each
  | matching line subject arms =>
    exact .bind (tells subject chronicle) fun later value _ _ => matchArms_tells tells value arms later
  | _ => exact .throw _

theorem executeNode_tells (tells : Evaluates evaluated evaluate) (executes : Executes executed execute)
    (turns : Nat) :
    Executes (executeNode evaluated executed turns) (Eval.executeNode evaluate execute turns) := by
  intro node chronicle
  cases node with
  | exprStmt line expression => exact .bind (tells expression chronicle) fun _ _ _ _ => .pure trivial
  | varDecl line name initializer =>
    have defines : ∀ (later : Chronicle) value, later.Knows value → Tells later knowsFlow
        (do define name value; return .normal) (do Eval.define name value; return .normal) :=
      fun later value known => .bind (define_tells name known) fun _ _ _ _ => .pure trivial
    rw [executeNode, Eval.executeNode]
    split
    · exact .bind (.pure trivial) fun later value _ known => defines later value known
    · exact .bind (tells initializer chronicle) fun later value _ known => defines later value known
  | printStmt line expression =>
    exact .bind (tells expression chronicle) fun _ _ _ _ => .bind (print_tells _)
      fun _ _ _ _ => .pure trivial
  | ifStmt line condition thenBranch elseBranch =>
    refine .bind (tells condition chronicle) fun later value _ _ => ?_
    split
    · exact executes thenBranch later
    · split
      · exact .pure trivial
      · exact executes elseBranch later
  | whileStmt line condition body => exact repeatWhile_tells tells executes condition body turns chronicle
  | block line statements =>
    exact .bind innerScope_tells fun later scope _ free => inScope_tells free fun last =>
      executeAll_tells executes statements last
  | fnDecl line name params body =>
    exact .bind (declare_tells name params body) fun later closure _ known =>
      .bind (define_tells name known) fun _ _ _ _ => .pure trivial
  | returnStmt line value =>
    rw [executeNode, Eval.executeNode]
    split
    · exact .pure trivial
    · exact .bind (tells value chronicle) fun _ _ _ known => .pure known
  | _ => exact .throw _

/-- At every depth, what is evaluated and executed is told. -/
theorem within_tells (turns depth : Nat) :
    Evaluates (evaluateWithin turns depth) (Eval.evaluateWithin turns depth) ∧
      Executes (executeWithin turns depth) (Eval.executeWithin turns depth) := by
  induction depth with
  | zero =>
    constructor
    · intro node chronicle
      exact .throw _
    · intro node chronicle
      exact .throw _
  | succ depth ih =>
    obtain ⟨tells, executes⟩ := ih
    constructor
    · intro node chronicle
      have found : ∀ (later : Chronicle) value, later.Knows value →
          Tells later Chronicle.Knows (find (pure value)) (pure value) :=
        fun later value known => find_tells (.ok value) rfl fun _ same => Except.ok.inj same ▸ known
      have told := Tells.bind (evaluateNode_tells tells executes node chronicle)
        fun later value _ known => found later value known
      rwa [bind_pure] at told
    · exact executeNode_tells tells executes turns

theorem interpret_tells (limits : Limits) (program : List Node) (chronicle : Chronicle) :
    Tells chronicle unknown (interpret limits program) (Eval.interpret limits program) := by
  have executes := (within_tells limits.turns limits.depth).2
  induction program generalizing chronicle with
  | nil => exact .pure trivial
  | cons statement rest ih =>
    refine .bind (executes statement chronicle).catchDepth fun later flow _ _ => ?_
    cases flow with
    | normal => exact ih later
    | returned value => exact note_tells _

end

end Telling

end Scriptlet
