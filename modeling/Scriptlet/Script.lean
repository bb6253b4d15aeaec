import Scriptlet.Token.Cursor
import Scriptlet.Parsing.Phrase
import Scriptlet.Machine.Evaluate
import Scriptlet.Node.Rendering

/-! From source text to a run. -/
namespace Scriptlet

/-- Why a source text was not run to its end. -/
inductive Error where
  | lex (error : LexError)
  | parse (error : ParseError)
  | run (fault : Fault)
  | render (error : RenderError)

def Error.message : Error → String
  | .lex error => error.message
  | .parse error => error.message
  | .run fault => fault.message
  | .render error => error.message

namespace Script

/-- The program that a list of tokens stands for, with the stream at the place where parsing
stopped. -/
def parseTokens (limits : Limits) (tokens : List Token) :
    EStateM.Result ParseError Stream (List Node) :=
  Parse.program limits.depth (Stream.ofTokens tokens)

/-- The program that a text stands for. -/
def parse (limits : Limits) (source : String) : Except Error (List Node) :=
  match tokenize source with
  | .error error => .error (.lex error)
  | .ok tokens =>
    match parseTokens limits tokens with
    | .ok program _ => .ok program
    | .error error _ => .error (.parse error)

/-- The expression that a text starts with; what follows it is not looked at. -/
def parseExpression (limits : Limits) (source : String) : Except Error Node :=
  match tokenize source with
  | .error error => .error (.lex error)
  | .ok tokens =>
    match Parse.phrase limits.depth .expression (Stream.ofTokens tokens) with
    | .ok node _ => .ok node
    | .error error _ => .error (.parse error)

/-- Runs a program on a machine. -/
def interpret (limits : Limits) (program : List Node) (machine : Machine) :
    Except Error Unit × Machine :=
  match Eval.interpret limits program machine with
  | .ok _ after => (.ok (), after)
  | .error fault after => (.error (.run fault), after)

/-- Runs a text on a machine. One that does not parse leaves the machine as it was. -/
def run (limits : Limits) (source : String) (machine : Machine) : Except Error Unit × Machine :=
  match parse limits source with
  | .error error => (.error error, machine)
  | .ok program => interpret limits program machine

/-- Renders a program whose nesting is within the depth limit. -/
def render (limits : Limits) (renderer : List Node → Except RenderError α) (program : List Node) :
    Except Error α :=
  match Node.guardDepth limits.depth program with
  | .error error => .error (.render error)
  | .ok _ =>
    match renderer program with
    | .error error => .error (.render error)
    | .ok result => .ok result

end Script

end Scriptlet
