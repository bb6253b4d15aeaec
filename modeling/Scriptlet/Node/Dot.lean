import Scriptlet.Text.Blank
import Scriptlet.Node.Drawing

/-! Drawings as texts in the dot language. -/
namespace Scriptlet

namespace Dot

def isIdStart (c : Char) : Bool :=
  c.isAlpha || c == '_'

/-- A name: an ASCII letter or underscore, then letters, digits and underscores. -/
def isName : List Char → Bool
  | [] => false
  | c :: rest => isIdStart c && rest.all fun other => isIdStart other || other.isDigit

/-- A plain decimal, perhaps with a minus sign and perhaps with no digit on one side of its point. -/
def isNumeral (text : List Char) : Bool :=
  let unsigned := match text with
    | '-' :: rest => rest
    | other => other
  let whole := unsigned.takeWhile Char.isDigit
  match unsigned.dropWhile Char.isDigit with
  | [] => !whole.isEmpty
  | '.' :: fraction => fraction.all Char.isDigit && !(whole.isEmpty && fraction.isEmpty)
  | _ => false

def reserved : List String :=
  ["node", "edge", "graph", "digraph", "subgraph", "strict"]

/-- Puts a backslash before each quote that has an even number of backslashes before it. -/
def escapeQuotes (odd : Bool) : List Char → List Char
  | [] => []
  | '"' :: rest => if odd then '"' :: escapeQuotes false rest else '\\' :: '"' :: escapeQuotes false rest
  | c :: rest => c :: escapeQuotes (c == '\\' && !odd) rest

/-- Whether a text may stand in a drawing without quotes. -/
def isBare (text : List Char) : Bool :=
  let judged := Text.withoutFinalNewline text
  if judged.head? == some '<' && judged.getLast? == some '>' then true
  else (isName judged || isNumeral judged) &&
    !reserved.contains (String.ofList (text.map Char.toLower))

def quote (label : String) : String :=
  if isBare label.toList then label
  else "\"" ++ String.ofList (escapeQuotes false label.toList) ++ "\""

end Dot

def Mark.text : Mark → String
  | .vertex number label shape =>
    "\t" ++ Mark.vertexName number ++ " [label=" ++ Dot.quote label ++ " shape=" ++ shape ++ "]\n"
  | .edge parent child label =>
    "\t" ++ Mark.vertexName parent ++ " -> " ++ Mark.vertexName child ++ " [label=" ++ Dot.quote label ++ "]\n"

/-- The text of a drawing in the dot language. -/
def Drawing.text (drawing : Drawing) : String :=
  "digraph \x7b\n\tgraph [rankdir=TB]\n" ++
    String.join (drawing.marks.toList.map Mark.text) ++ "\x7d\n"

namespace Node

/-- What is said of a program that is too deep to be drawn. It depends on whether the first vertex for
which there is no room has a label that must be quoted. -/
def depthComplaint (room : Nat) (program : List Node) : String :=
  let label := (program.findSome? fun node => (node.figure false).beyond? room).getD ""
  "maximum recursion depth exceeded " ++
    if Dot.isBare label.toList then "while calling a Python object" else "in comparison"

/-- The drawing of a program as text. -/
def programDrawing (showLines : Bool) (program : List Node) : Except RenderError String :=
  (drawProgram showLines program).map Drawing.text

end Node

end Scriptlet
