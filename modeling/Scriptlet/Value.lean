import Scriptlet.Node

/-! The values that a program computes with. -/
namespace Scriptlet

/-- Scopes are numbered in the order of their creation. -/
abbrev ScopeId := Nat

/-- A function with the scope that belongs to it alone: it lies inside the scope of the declaration
and holds no names. Since each function gets a fresh one, it also tells functions apart. -/
structure Function where
  name : String
  params : List String
  body : Node
  closure : ScopeId
deriving Inhabited

def Function.arity (function : Function) : Nat :=
  function.params.length

def Function.display (function : Function) : String :=
  "<fn " ++ function.name ++ ">"

inductive Value where
  | scalar (value : Scalar)
  | function (callee : Function)
deriving Inhabited

namespace Value

@[match_pattern]
def null : Value := .scalar .null

@[match_pattern]
def bool (value : Bool) : Value := .scalar (.bool value)

@[match_pattern]
def number (value : Float) : Value := .scalar (.number value)

def truthy : Value → Bool
  | .scalar value => value.truthy
  | .function _ => true

/-- Whether arithmetic applies. Integers are not numbers of the language. -/
def isNumber : Value → Bool
  | .number _ => true
  | _ => false

/-- The equality of the language: a boolean equals only a boolean, and a function only itself. -/
def equal : Value → Value → Bool
  | .scalar left, .scalar right => left.equal right
  | .function left, .function right => left.closure == right.closure
  | _, _ => false

/-- The text that a program prints. -/
def display : Value → String
  | .scalar value => value.display
  | .function callee => callee.display

end Value

end Scriptlet
