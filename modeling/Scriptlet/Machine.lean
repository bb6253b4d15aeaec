import Scriptlet.Scope

/-! The state of a run and its elementary steps. -/
namespace Scriptlet

/-- What is worth noting about a run beside its output. -/
inductive Event where
  | called (function : Function) (count : Nat)
  | discarded (value : Value)

def Event.text : Event → String
  | .called function count =>
    "call " ++ function.display ++ " with " ++ toString count ++ " argument(s)"
  | .discarded value => "top-level return, discarding " ++ value.display

/-- All scopes with the current one among them, the lines printed so far, and the events so far. The
global scope has the number zero. -/
structure Machine where
  forest : Forest
  current : ScopeId
  output : Array String
  events : Array Event

namespace Machine

def globalScope : ScopeId := 0

/-- A machine on which nothing has run. -/
def fresh : Machine :=
  { forest := #[⟨none, []⟩], current := globalScope, output := #[], events := #[] }

/-- The global bindings in the order of their names. -/
def globals (machine : Machine) : List (String × Value) :=
  machine.forest[globalScope]?.elim [] Scope.sorted

end Machine

/-- A step of a run. What it did before it failed stays done. -/
abbrev Eval := EStateM Fault Machine

namespace Eval

def ofExcept (result : Except Fault α) : Eval α :=
  match result with
  | .ok value => pure value
  | .error fault => throw fault

/-- An operation on the scopes of the machine. -/
def onScopes (operation : Store α) : Eval α := fun ⟨forest, current, output, events⟩ =>
  match operation forest with
  | .ok value forest => .ok value ⟨forest, current, output, events⟩
  | .error fault forest => .error fault ⟨forest, current, output, events⟩

/-- Creates a scope inside the current one. -/
def innerScope : Eval ScopeId := do
  onScopes (Store.newScope (some (← get).current))

/-- The value of a name as seen from the current scope. -/
def lookup (name : String) : Eval Value := do
  let machine ← get
  ofExcept (machine.forest.get machine.current name)

/-- Rebinds a name as seen from the current scope. -/
def assign (name : String) (value : Value) : Eval Value := do
  onScopes (Store.assign (← get).current name value)

/-- Binds a new name in the current scope. -/
def define (name : String) (value : Value) : Eval Unit := do
  onScopes (Store.define (← get).current name value)

def print (line : String) : Eval Unit :=
  modify fun machine => { machine with output := machine.output.push line }

def note (event : Event) : Eval Unit :=
  modify fun machine => { machine with events := machine.events.push event }

/-- Runs an action in another scope, and comes back to the scope before it however it ends. -/
def inScope (id : ScopeId) (action : Eval α) : Eval α := fun machine =>
  let previous := machine.current
  match action { machine with current := id } with
  | .ok value after => .ok value { after with current := previous }
  | .error fault after => .error fault { after with current := previous }

/-- Where the language itself is running, reaching the depth limit is a fault of the program. -/
def catchDepth (action : Eval α) : Eval α := fun machine =>
  match action machine with
  | .error .depthExceeded after => .error .stackOverflow after
  | result => result

end Eval

end Scriptlet
