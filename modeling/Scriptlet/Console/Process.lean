import Scriptlet.Node.Outline
import Scriptlet.Node.Encode
import Scriptlet.Console.Arguments
import Scriptlet.Console.Shell

/-! The stages that one source text goes through: its tokens are listed, its tree is shown, dumped and
drawn, and the program is run, each only if it is asked for. -/
namespace Scriptlet.Console

/-- A path that was given and is not empty. -/
def given (path : Option String) : Option String :=
  path.filter (· != "")

namespace Work

/-- A number in a column of at least three characters. -/
def column (n : Nat) : String :=
  let digits := Nat.toDigits 10 n
  String.ofList (List.replicate (3 - digits.length) ' ' ++ digits)

def listTokens : Nat → List Token → Work Unit
  | _, [] => return ()
  | index, token :: rest => do
    say ("  " ++ column index ++ ": " ++ token.listing)
    listTokens (index + 1) rest

/-- Writes a file, and says whether that went well. -/
def save (path : String) (content : ByteArray) : Work Bool := do
  match ← onDisk (OnDisk.write path content) with
  | .error error =>
    say ("Error: " ++ (← diskMessage error))
    return false
  | .ok _ => return true

/-- Writes the JSON text of a program to a file, which is emptied first. -/
def dump (limits : Limits) (path : String) (program : List Node) : Work Bool := do
  if ← save path ByteArray.empty then
    let json ← rendered limits Node.programToJson program
    if ← save path json.text.toUTF8 then
      say ("Wrote AST JSON to " ++ path)
      return true
  return false

/-- Has a picture made of a drawing: its path, or the reason why there is none. -/
def plot (drawing : Drawing) (path : String) (format : Option String) : Work (Except String String) := do
  let shell ← get
  let picture := shell.plotter.render drawing path format shell.disk
  set { shell with disk := picture.disk }
  picture.log.forM fun line => log line.1 line.2
  return picture.result

/-- Draws a program and has a picture made of it. -/
def draw (limits : Limits) (path : String) (format : Option String) (program : List Node) :
    Work (Except String String) := do
  match Script.render limits (Node.drawProgram false) program with
  | .error _ => return .error (Node.depthComplaint limits.depth program)
  | .ok drawing => plot drawing path format

/-- Runs a program on the machine, and says whether it ended well. -/
def execute (limits : Limits) (program : List Node) : Work Bool := do
  let shell ← get
  let (result, machine) := Script.interpret limits program shell.machine
  set { shell with machine := machine }
  flush
  match result with
  | .ok _ => return true
  | .error error => report error

/-- The stages after parsing. -/
def processTree (limits : Limits) (options : Options) (program : List Node) : Work Bool := do
  if options.printTree then
    say (← rendered limits (fun nodes => .ok (Node.programOutline nodes)) program)
  let dumped ← match given options.dumpTree with
    | some path => dump limits path program
    | none => pure true
  if !dumped then return false
  match given options.drawTree with
  | some path =>
    match ← draw limits path options.drawFormat program with
    | .ok picture => say ("Wrote AST visualization to " ++ picture)
    | .error reason => say ("Failed to render AST visualization to " ++ path ++ ": " ++ reason)
  | none => pure ()
  if options.execute then execute limits program else return true

/-- Takes one source text through all stages that are asked for. -/
def process (limits : Limits) (options : Options) (source : String) : Work Bool := do
  match tokenize source with
  | .error error => report (.lex error)
  | .ok tokens =>
    if options.printTokens then
      say ("Tokens (" ++ toString tokens.length ++ "):")
      listTokens 0 tokens
    let parsed := Script.parseTokens limits tokens
    let stream := match parsed with
      | .ok _ stream => stream
      | .error _ stream => stream
    stream.declared.forM fun function =>
      log "parser" ("parsed function " ++ function.1 ++ "/" ++ toString function.2)
    match parsed with
    | .error error _ => report (.parse error)
    | .ok program _ =>
      log "parser" ("parsed " ++ toString program.length ++ " top-level statements")
      log "main" ("parsed " ++ toString program.length ++ " statement(s)")
      processTree limits options program

end Work

end Scriptlet.Console
