import Scriptlet.Machine
import Scriptlet.Proofs.Machine.Safety
import Scriptlet.Proofs.Node.Lines

/-! What a machine holds of trees are the bodies of functions. With other lines in these, values and
scopes behave as before. -/
namespace Scriptlet

section

variable (change : Int → Int)

def Function.mapLines (function : Function) : Function :=
  { function with body := function.body.mapLines change }

def Value.mapLines : Value → Value
  | .scalar value => .scalar value
  | .function callee => .function (callee.mapLines change)

def Flow.mapLines : Flow → Flow
  | .normal => .normal
  | .returned value => .returned (value.mapLines change)

def Fault.mapLines : Fault → Fault
  | .notNumber operator operand => .notNumber operator (operand.mapLines change)
  | .notCallable value => .notCallable (value.mapLines change)
  | .wrongArity function given => .wrongArity (function.mapLines change) given
  | .divisionByZero dividend => .divisionByZero (dividend.mapLines change)
  | .noMatch subject => .noMatch (subject.mapLines change)
  | .unhandledStatement node => .unhandledStatement (node.mapLines change)
  | .unhandledExpression node => .unhandledExpression (node.mapLines change)
  | fault => fault

def Event.mapLines : Event → Event
  | .called function count => .called (function.mapLines change) count
  | .discarded value => .discarded (value.mapLines change)

def Scope.mapLines (scope : Scope) : Scope :=
  { scope with bindings := scope.bindings.map fun binding => (binding.1, binding.2.mapLines change) }

def Forest.mapLines (forest : Forest) : Forest :=
  forest.map (·.mapLines change)

def Machine.mapLines (machine : Machine) : Machine :=
  { machine with
    forest := Forest.mapLines change machine.forest
    events := machine.events.map (·.mapLines change) }

end

variable {change : Int → Int}

theorem Function.display_mapLines (function : Function) :
    (function.mapLines change).display = function.display := rfl

theorem Function.arity_mapLines (function : Function) :
    (function.mapLines change).arity = function.arity := rfl

namespace Value

theorem display_mapLines (value : Value) : (value.mapLines change).display = value.display := by
  cases value <;> rfl

theorem truthy_mapLines (value : Value) : (value.mapLines change).truthy = value.truthy := by
  cases value <;> rfl

theorem equal_mapLines (left right : Value) :
    (left.mapLines change).equal (right.mapLines change) = left.equal right := by
  cases left <;> cases right <;> rfl

/-- The result of an operator, with other lines. -/
def relined (change : Int → Int) : Except Fault Value → Except Fault Value
  | .ok value => .ok (value.mapLines change)
  | .error fault => .error (fault.mapLines change)

theorem operands_mapLines (operator : String) (left right : Value) :
    operands operator (left.mapLines change) (right.mapLines change) =
      (operands operator left right).mapError (·.mapLines change) := by
  cases left with
  | function callee => rfl
  | scalar left =>
    cases left with
    | number left =>
      cases right with
      | function callee => rfl
      | scalar right => cases right <;> rfl
    | _ => rfl

theorem arithmetic_mapLines (operator : String) (left right : Float) :
    relined change (arithmetic operator left right) = arithmetic operator left right := by
  unfold arithmetic
  split
  case h_4 => split <;> rfl
  all_goals rfl

theorem binary_mapLines (operator : String) (left right : Value) :
    binary operator (left.mapLines change) (right.mapLines change) =
      relined change (binary operator left right) := by
  unfold binary
  split
  · rw [equal_mapLines]
    rfl
  · rw [equal_mapLines]
    rfl
  · rw [operands_mapLines]
    cases operands operator left right with
    | ok pair => exact (arithmetic_mapLines operator pair.1 pair.2).symm
    | error fault => rfl

theorem unary_mapLines (operator : String) (operand : Value) :
    unary operator (operand.mapLines change) = relined change (unary operator operand) := by
  unfold unary
  split
  · cases operand with
    | function callee => rfl
    | scalar value => cases value <;> rfl
  · rw [truthy_mapLines]
    rfl
  · rfl

end Value

theorem Fault.isLanguage_mapLines (fault : Fault) :
    (fault.mapLines change).isLanguage = fault.isLanguage := by
  cases fault <;> rfl

/-- The messages of the language name functions, but no lines. -/
theorem Fault.message_mapLines {fault : Fault} (language : fault.isLanguage) :
    (fault.mapLines change).message = fault.message := by
  delta Fault.message
  cases fault with
  | unhandledStatement | unhandledExpression => cases language
  | _ =>
    simp only [Fault.mapLines, Value.display_mapLines, Function.display_mapLines,
      Function.arity_mapLines]

namespace Scope

theorem find?_mapLines (scope : Scope) (name : String) :
    (scope.mapLines change).find? name = (scope.find? name).map (·.mapLines change) := by
  obtain ⟨enclosing, bindings⟩ := scope
  unfold find? mapLines
  dsimp only
  induction bindings with
  | nil => rfl
  | cons binding bindings ih =>
    rw [List.map_cons, List.lookup_cons, List.lookup_cons, ih]
    cases name == binding.1 <;> rfl

theorem binds_mapLines (scope : Scope) (name : String) :
    (scope.mapLines change).binds name = scope.binds name := by
  rw [binds, find?_mapLines, Option.isSome_map, binds]

theorem bind_mapLines (scope : Scope) (name : String) (value : Value) :
    (scope.mapLines change).bind name (value.mapLines change) =
      (scope.bind name value).mapLines change := rfl

theorem rebind_mapLines (scope : Scope) (name : String) (value : Value) :
    (scope.mapLines change).rebind name (value.mapLines change) =
      (scope.rebind name value).mapLines change := by
  unfold rebind mapLines
  simp only [List.map_map, mk.injEq, true_and]
  refine List.map_congr_left fun binding _ => ?_
  simp only [Function.comp_apply]
  split <;> rfl

end Scope

namespace Forest

theorem getElem?_mapLines (forest : Forest) (id : ScopeId) :
    (forest.mapLines change)[id]? = forest[id]?.map (·.mapLines change) :=
  Array.getElem?_map

theorem resolveWithin_mapLines (forest : Forest) (name : String) (fuel : Nat) (id : ScopeId) :
    (forest.mapLines change).resolveWithin name fuel id = forest.resolveWithin name fuel id := by
  induction fuel generalizing id with
  | zero => rfl
  | succ fuel ih =>
    rw [resolveWithin, resolveWithin, getElem?_mapLines]
    cases forest[id]? with
    | none => rfl
    | some scope =>
      have further : resolveWithin (forest.mapLines change) name fuel =
          forest.resolveWithin name fuel := funext ih
      simp only [Option.map_some, Scope.binds_mapLines, further]
      rfl

theorem resolve_mapLines (forest : Forest) (id : ScopeId) (name : String) :
    (forest.mapLines change).resolve id name = forest.resolve id name :=
  resolveWithin_mapLines forest name (id + 1) id

theorem get_mapLines (forest : Forest) (id : ScopeId) (name : String) :
    (forest.mapLines change).get id name = Value.relined change (forest.get id name) := by
  unfold get
  rw [resolve_mapLines]
  cases forest.resolve id name with
  | none => rfl
  | some home =>
    simp only [Option.bind_some, getElem?_mapLines]
    cases forest[home]? with
    | none => rfl
    | some scope =>
      simp only [Option.map_some, Option.bind_some, Scope.find?_mapLines]
      cases scope.find? name <;> rfl

theorem isDefined_mapLines (forest : Forest) (id : ScopeId) (name : String) :
    (forest.mapLines change).isDefined id name = forest.isDefined id name := by
  unfold isDefined
  rw [getElem?_mapLines]
  cases forest[id]? with
  | none => rfl
  | some scope => exact Scope.binds_mapLines scope name

theorem modify_mapLines (forest : Forest) (home : ScopeId) {first second : Scope → Scope}
    (same : ∀ scope, first (scope.mapLines change) = (second scope).mapLines change) :
    (forest.mapLines change).modify home first = mapLines change (forest.modify home second) := by
  apply Array.ext_getElem?
  intro index
  rw [Array.getElem?_modify, getElem?_mapLines, getElem?_mapLines, Array.getElem?_modify]
  by_cases here : home = index
  · rw [if_pos here, if_pos here]
    cases forest[index]? with
    | none => rfl
    | some scope => exact congrArg some (same scope)
  · rw [if_neg here, if_neg here]

theorem push_mapLines (forest : Forest) (enclosing : Option ScopeId) :
    (forest.mapLines change).push ⟨enclosing, []⟩ = mapLines change (forest.push ⟨enclosing, []⟩) := by
  rw [mapLines, mapLines, Array.map_push]
  rfl

end Forest

end Scriptlet
