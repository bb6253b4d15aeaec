import Scriptlet.Fault

/-! Scopes: each binds names and lies inside at most one other scope, which was created before it.
Scopes are never removed, since a function may hold on to the scope it was declared in. -/
namespace Scriptlet

structure Scope where
  enclosing : Option ScopeId
  bindings : List (String × Value)
deriving Inhabited

namespace Scope

def find? (scope : Scope) (name : String) : Option Value :=
  scope.bindings.lookup name

def binds (scope : Scope) (name : String) : Bool :=
  (scope.find? name).isSome

/-- Adds a binding for a name that is not bound yet. -/
def bind (scope : Scope) (name : String) (value : Value) : Scope :=
  { scope with bindings := (name, value) :: scope.bindings }

/-- Gives a bound name another value. -/
def rebind (scope : Scope) (name : String) (value : Value) : Scope :=
  { scope with
    bindings := scope.bindings.map fun binding =>
      if binding.1 == name then (name, value) else binding }

/-- The bindings in the order of their names. -/
def sorted (scope : Scope) : List (String × Value) :=
  scope.bindings.mergeSort fun left right => !(right.1 < left.1)

/-- The names of a scope, as in `Environment(['a', 'b'])`. -/
def form (scope : Scope) : String :=
  "Environment([" ++
    String.intercalate ", " (scope.sorted.map fun binding => Text.quoted binding.1) ++ "])"

end Scope

/-- All scopes, by their numbers. -/
abbrev Forest := Array Scope

namespace Forest

/-- The nearest scope that binds a name, among a scope and those around it, at most `fuel` of them. -/
def resolveWithin (forest : Forest) (name : String) : (fuel : Nat) → ScopeId → Option ScopeId
  | 0, _ => none
  | fuel + 1, id =>
    match forest[id]? with
    | none => none
    | some scope =>
      if scope.binds name then some id
      else scope.enclosing.bind (resolveWithin forest name fuel)

/-- The nearest scope that binds a name. Scopes lie in earlier ones, so a chain that starts at `id`
has at most `id + 1` of them. -/
def resolve (forest : Forest) (id : ScopeId) (name : String) : Option ScopeId :=
  forest.resolveWithin name (id + 1) id

/-- The value of a name as seen from a scope. -/
def get (forest : Forest) (id : ScopeId) (name : String) : Except Fault Value :=
  match (forest.resolve id name).bind fun home => forest[home]?.bind (·.find? name) with
  | some value => .ok value
  | none => .error (.undefined name)

def isDefined (forest : Forest) (id : ScopeId) (name : String) : Bool :=
  forest[id]?.any (·.binds name)

end Forest

/-- An operation on scopes, which leaves them as they were when it fails. -/
abbrev Store := EStateM Fault Forest

namespace Store

/-- Creates a scope that binds nothing. -/
def newScope (enclosing : Option ScopeId) : Store ScopeId := fun forest =>
  .ok forest.size (forest.push ⟨enclosing, []⟩)

/-- Rebinds a name where it is bound nearest, and returns the value. -/
def assign (id : ScopeId) (name : String) (value : Value) : Store Value := fun forest =>
  match forest.resolve id name with
  | some home => .ok value (forest.modify home (·.rebind name value))
  | none => .error (.undefined name) forest

/-- Binds a new name in a scope. -/
def define (id : ScopeId) (name : String) (value : Value) : Store Unit := fun forest =>
  if forest.isDefined id name then .error (.duplicate name) forest
  else .ok () (forest.modify id (·.bind name value))

end Store

end Scriptlet
