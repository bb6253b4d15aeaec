import Scriptlet.Number.Style
import Scriptlet.Text.Quoted

/-! Plain values: what a literal can hold. Source text writes only null, booleans and numbers;
integers and texts come from trees and scopes that are built by hand. -/
namespace Scriptlet

inductive Scalar where
  | null
  | bool (value : Bool)
  | number (value : Float)
  | integer (value : Int)
  | text (value : String)
deriving Inhabited

namespace Number

/-- Equality of doubles as numbers: NaN equals nothing, and the two zeros are equal. -/
def equal (x y : Float) : Bool :=
  !isNaN x && (isZero x && isZero y || binary x == binary y)

end Number

namespace Scalar

/-- Null, false, zero and the empty text count as false. -/
def truthy : Scalar → Bool
  | null => false
  | bool value => value
  | number value => !Number.isZero value
  | integer value => value != 0
  | text value => value != ""

/-- Equality by content. Numbers of either sort are compared exactly. -/
def equal : Scalar → Scalar → Bool
  | null, null => true
  | bool left, bool right => left == right
  | number left, number right => Number.equal left right
  | number left, integer right => Number.equalsInteger left right
  | integer left, number right => Number.equalsInteger right left
  | integer left, integer right => left == right
  | text left, text right => left == right
  | _, _ => false

/-- A boolean taken for the number it stands for. -/
def asNumber : Scalar → Scalar
  | bool value => integer (if value then 1 else 0)
  | other => other

/-- Equality of literals in trees, where a boolean is the number zero or one. -/
def loose (left right : Scalar) : Bool :=
  left.asNumber.equal right.asNumber

/-- The text that a program prints. -/
def display : Scalar → String
  | null => "null"
  | bool value => if value then "true" else "false"
  | number value => Number.Style.printed.text value
  | integer value => toString value
  | text value => value

/-- The text of a literal in a listing of its tree. -/
def literal : Scalar → String
  | null => "null"
  | bool value => if value then "true" else "false"
  | number value => Number.Style.literal.text value
  | integer value => toString value
  | text value => Text.quoted value

/-- The constructor form. -/
def form : Scalar → String
  | null => "None"
  | bool value => if value then "True" else "False"
  | number value => Number.Style.literal.text value
  | integer value => toString value
  | text value => Text.quoted value

/-- The text of a value that stands in the place of a node. -/
def plain : Scalar → String
  | text value => value
  | other => other.form

def typeName : Scalar → String
  | null => "NoneType"
  | bool _ => "bool"
  | number _ => "float"
  | integer _ => "int"
  | text _ => "str"

end Scalar

end Scriptlet
