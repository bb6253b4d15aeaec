import Scriptlet.Machine

/-! Evaluation of expressions and execution of statements. One level of either is written in terms of
the level below it; the levels are then stacked up to a limit on how deep evaluations may nest. -/
namespace Scriptlet

/-- How deep evaluations may nest, and how many turns one loop may take. -/
structure Limits where
  depth : Nat
  turns : Nat

/-- Nesting is limited to five thousand levels. The number of turns is beyond what any run can take,
so loops are in effect unlimited. -/
def Limits.standard : Limits := ⟨5000, Number.pow2 62⟩

/-- How a statement ends: it runs to completion, or it returns a value from the function around it. -/
inductive Flow where
  | normal
  | returned (value : Value)
deriving Inhabited

namespace Eval

section

variable (evaluate : Node → Eval Value) (execute : Node → Eval Flow)

/-- Runs statements one after the other until one returns. -/
def executeAll : List Node → Eval Flow
  | [] => return .normal
  | statement :: rest => do
    match ← execute statement with
    | .returned value => return .returned value
    | .normal => executeAll rest

/-- Evaluates from left to right, after the values already found. -/
def evaluateAll (found : Array Value) : List Node → Eval (Array Value)
  | [] => return found
  | node :: rest => do evaluateAll (found.push (← evaluate node)) rest

/-- Binds parameters to arguments, pair by pair. -/
def bindParams (id : ScopeId) : List String → List Value → Eval Unit
  | name :: names, value :: values => do
    onScopes (Store.define id name value)
    bindParams id names values
  | _, _ => return ()

/-- Calls a function in a fresh scope inside its own. A body that ends without returning gives
null. -/
def call (function : Function) (arguments : List Value) : Eval Value := do
  if arguments.length ≠ function.arity then throw (.wrongArity function arguments.length)
  let scope ← onScopes (Store.newScope (some function.closure))
  bindParams scope function.params arguments
  note (.called function arguments.length)
  match function.body with
  | .block _ statements =>
    match ← catchDepth (inScope scope (executeAll execute statements)) with
    | .returned value => return value
    | .normal => return .null
  | _ => throw .missingPart

/-- The body of the first arm whose pattern equals the subject. -/
def matchArms (subject : Value) : List Node → Eval Value
  | [] => throw (.noMatch subject)
  | .matchArm _ pattern body :: rest => do
    if subject.equal (← evaluate pattern) then evaluate body else matchArms subject rest
  | _ :: _ => throw .missingPart

/-- Turns of a loop, until its condition is false or its body returns. -/
def repeatWhile (condition body : Node) : (turns : Nat) → Eval Flow
  | 0 => throw .unfinished
  | turns + 1 => do
    if (← evaluate condition).truthy then
      match ← execute body with
      | .returned value => return .returned value
      | .normal => repeatWhile condition body turns
    else return .normal

/-- One level of evaluation. -/
def evaluateNode : Node → Eval Value
  | .literal _ value => return .scalar value
  | .binary _ operator left right => do
    let first ← evaluate left
    let second ← evaluate right
    ofExcept (Value.binary operator first second)
  | .unary _ operator operand => do
    let value ← evaluate operand
    ofExcept (Value.unary operator value)
  | .reference _ name => lookup name
  | .assignment _ name value => do
    let result ← evaluate value
    assign name result
  | .call _ callee arguments => do
    match ← evaluate callee with
    | .function function =>
      let values ← evaluateAll evaluate #[] arguments
      call execute function values.toList
    | other => throw (.notCallable other)
  | .matching _ subject arms => do
    let value ← evaluate subject
    matchArms evaluate value arms
  | node => throw (.unhandledExpression node)

/-- One level of execution. -/
def executeNode (turns : Nat) : Node → Eval Flow
  | .exprStmt _ expression => do
    let _ ← evaluate expression
    return .normal
  | .varDecl _ name initializer => do
    let value ← if initializer.isAbsent then pure .null else evaluate initializer
    define name value
    return .normal
  | .printStmt _ expression => do
    let value ← evaluate expression
    print value.display
    return .normal
  | .ifStmt _ condition thenBranch elseBranch => do
    if (← evaluate condition).truthy then execute thenBranch
    else if elseBranch.isAbsent then return .normal
    else execute elseBranch
  | .whileStmt _ condition body => repeatWhile evaluate execute condition body turns
  | .block _ statements => do
    let scope ← innerScope
    inScope scope (executeAll execute statements)
  | .fnDecl _ name params body => do
    let closure ← innerScope
    define name (.function ⟨name, params, body, closure⟩)
    return .normal
  | .returnStmt _ value => do
    if value.isAbsent then return .returned .null
    else return .returned (← evaluate value)
  | .forStmt .. => throw .unexpandedLoop
  | node => throw (.unhandledStatement node)

end

mutual

/-- Evaluates an expression within a nesting depth. -/
def evaluateWithin (turns : Nat) : (depth : Nat) → Node → Eval Value
  | 0, _ => throw .depthExceeded
  | depth + 1, node => evaluateNode (evaluateWithin turns depth) (executeWithin turns depth) node

/-- Executes a statement within a nesting depth. -/
def executeWithin (turns : Nat) : (depth : Nat) → Node → Eval Flow
  | 0, _ => throw .depthExceeded
  | depth + 1, node => executeNode (evaluateWithin turns depth) (executeWithin turns depth) turns node

end

def evaluate (limits : Limits) (node : Node) : Eval Value :=
  evaluateWithin limits.turns limits.depth node

def execute (limits : Limits) (node : Node) : Eval Flow :=
  executeWithin limits.turns limits.depth node

/-- Calls a value with arguments that are already evaluated. -/
def apply (limits : Limits) (callee : Value) (arguments : List Value) : Eval Value :=
  match callee with
  | .function function => call (execute limits) function arguments
  | .scalar _ => throw .missingPart

/-- Runs the statements of a program. A return ends the program and its value is dropped. -/
def interpret (limits : Limits) : List Node → Eval Unit
  | [] => return ()
  | statement :: rest => do
    match ← catchDepth (execute limits statement) with
    | .returned value => note (.discarded value)
    | .normal => interpret limits rest

/-- Executes every statement, also those after a return, and lists how each of them ended. -/
def executeEach (limits : Limits) (found : Array Flow) : List Node → Eval (List Flow)
  | [] => return found.toList
  | statement :: rest => do
    let flow ← execute limits statement
    executeEach limits (found.push flow) rest

end Eval

end Scriptlet
