import Scriptlet.Node

/-! What can go wrong when a tree is rendered. -/
namespace Scriptlet

inductive RenderError where
  /-- The named sort of value has no source form. -/
  | notSource (typeName : String)
  /-- The named sort of value has no JSON form. -/
  | notJson (typeName : String)
  /-- A plain value in the place of a node has no line to be shown. -/
  | noLine
  /-- The tree has more levels than the depth limit allows. -/
  | depthExceeded
deriving DecidableEq

def RenderError.message : RenderError → String
  | .notSource typeName => "Cannot render " ++ typeName ++ " as source"
  | .notJson typeName => "Cannot encode " ++ typeName ++ " as JSON"
  | .noLine => "no line to show"
  | .depthExceeded => "depth limit exceeded"

/-- Goes on only with trees that have at most `depth` levels. -/
def Node.guardDepth (depth : Nat) (nodes : List Node) : Except RenderError Unit :=
  if Node.fitAll depth nodes then .ok () else .error .depthExceeded

end Scriptlet
