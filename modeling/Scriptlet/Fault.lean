import Scriptlet.Value
import Scriptlet.Node.Form

/-! Why a run ends before its program does. -/
namespace Scriptlet

inductive Fault where
  | undefined (name : String)
  | duplicate (name : String)
  | notNumber (operator : String) (operand : Value)
  | notCallable (value : Value)
  | wrongArity (function : Function) (given : Nat)
  | divisionByZero (dividend : Value)
  | stackOverflow
  | noMatch (subject : Value)
  /-- The faults from here on need a tree that no source text has. -/
  | unhandledStatement (node : Node)
  | unhandledExpression (node : Node)
  | unexpandedLoop
  | unsupportedUnary (operator : String)
  | unsupportedBinary (operator : String)
  /-- A part was asked of something that has no such part. -/
  | missingPart
  /-- The depth limit was reached outside every call and program. -/
  | depthExceeded
  /-- A loop took more turns than it was given. -/
  | unfinished

def Fault.message : Fault → String
  | .undefined name => "Undefined variable '" ++ name ++ "'"
  | .duplicate name => "Variable '" ++ name ++ "' already defined in this scope"
  | .notNumber operator operand =>
    "Operands of '" ++ operator ++ "' must be numbers, got " ++ operand.display
  | .notCallable value => "Can only call functions, got " ++ value.display
  | .wrongArity function given =>
    function.display ++ " expects " ++ toString function.arity ++ " argument(s), got " ++
      toString given
  | .divisionByZero dividend => "Division by zero: " ++ dividend.display ++ " / 0"
  | .stackOverflow => "Maximum call depth exceeded"
  | .noMatch subject => "No match for value: " ++ subject.display
  | .unhandledStatement node => "Unhandled statement node: " ++ node.form
  | .unhandledExpression node => "Unhandled expression node: " ++ node.form
  | .unexpandedLoop => "for-loop reached the interpreter without desugaring"
  | .unsupportedUnary operator => "Unsupported unary operator: " ++ operator
  | .unsupportedBinary operator => "Unsupported binary operator: " ++ operator
  | .missingPart => "missing part"
  | .depthExceeded => "depth limit exceeded"
  | .unfinished => "unfinished loop"

namespace Value

/-- The two operands as numbers; the left one is judged first. -/
def operands (operator : String) : Value → Value → Except Fault (Float × Float)
  | .number left, .number right => .ok (left, right)
  | .number _, right => .error (.notNumber operator right)
  | left, _ => .error (.notNumber operator left)

/-- The operators on two numbers. -/
def arithmetic (operator : String) (left right : Float) : Except Fault Value :=
  match operator with
  | "+" => .ok (.number (left + right))
  | "-" => .ok (.number (left - right))
  | "*" => .ok (.number (left * right))
  | "/" =>
    if Number.isZero right then .error (.divisionByZero (.number left))
    else .ok (.number (left / right))
  | ">" => .ok (.bool (left > right))
  | ">=" => .ok (.bool (left ≥ right))
  | "<" => .ok (.bool (left < right))
  | "<=" => .ok (.bool (left ≤ right))
  | _ => .error (.unsupportedBinary operator)

/-- Applies a binary operator. Equality takes any two values, every other operator numbers; an
unknown operator is noticed only after its operands. -/
def binary (operator : String) (left right : Value) : Except Fault Value :=
  match operator with
  | "==" => .ok (.bool (left.equal right))
  | "!=" => .ok (.bool (!left.equal right))
  | _ =>
    match operands operator left right with
    | .ok (left, right) => arithmetic operator left right
    | .error fault => .error fault

/-- Applies a unary operator. -/
def unary (operator : String) (operand : Value) : Except Fault Value :=
  match operator with
  | "-" =>
    match operand with
    | .number value => .ok (.number (-value))
    | other => .error (.notNumber operator other)
  | "!" => .ok (.bool (!operand.truthy))
  | _ => .error (.unsupportedUnary operator)

end Value

end Scriptlet
