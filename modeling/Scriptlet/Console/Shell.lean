import Scriptlet.Script
import Scriptlet.Console.Plotter

/-! The shell: the state in which programs are run from the command line. All that happens is a change
of that state, so that a run can be observed as a whole. -/
namespace Scriptlet.Console

/-- Why the shell stops in the middle of its work. -/
inductive Crash where
  /-- A source file is not UTF-8. -/
  | notText
  /-- A path holds a null character. -/
  | nullInPath
  /-- A tree is too deep to be shown. -/
  | depthExceeded
  /-- An error that no source text causes. -/
  | internal (message : String)
deriving DecidableEq

/-- The machine that runs the programs, the disk, the package that makes pictures, what was written to the
two output channels, and whether the log is kept. -/
structure Shell where
  machine : Machine
  disk : Disk
  plotter : Plotter
  stdout : String
  stderr : String
  verbose : Bool

abbrev Work := EStateM Crash Shell

namespace Work

def write (text : String) : Work Unit :=
  modify fun shell => { shell with stdout := shell.stdout ++ text }

def say (line : String) : Work Unit :=
  write (line ++ "\n")

/-- Adds a line to the log, if there is one. -/
def log (origin message : String) : Work Unit :=
  modify fun shell =>
    if shell.verbose then
      { shell with stderr := shell.stderr ++ "DEBUG " ++ origin ++ ": " ++ message ++ "\n" }
    else shell

/-- Hands on what a run has printed and noted. -/
def flush : Work Unit := do
  let shell ← get
  set { shell with machine := { shell.machine with output := #[], events := #[] } }
  shell.machine.output.forM say
  shell.machine.events.forM fun event => log "interpreter" event.text

/-- Works on the disk. -/
def onDisk (action : OnDisk α) : Work (Except DiskError α) := fun shell =>
  match action shell.disk with
  | .ok result after => .ok (.ok result) { shell with disk := after }
  | .error error after => .ok (.error error) { shell with disk := after }

/-- The message of a disk error, unless it stops the shell. -/
def diskMessage : DiskError → Work String
  | .nullInPath => throw .nullInPath
  | error => return error.message

/-- An error of the language is reported; anything else stops the shell. -/
def report : Error → Work Bool
  | .parse .depthExceeded | .run .depthExceeded | .render .depthExceeded => throw .depthExceeded
  | .parse (.notNumber lexeme) => throw (.internal (ParseError.notNumber lexeme).message)
  | .run .missingPart => throw (.internal Fault.missingPart.message)
  | .run .unfinished => throw (.internal Fault.unfinished.message)
  | .render error => throw (.internal error.message)
  | error => do
    say ("Error: " ++ error.message)
    return false

/-- Renders a tree, or stops the shell because it is too deep. -/
def rendered (limits : Limits) (renderer : List Node → Except RenderError α) (program : List Node) :
    Work α :=
  match Script.render limits renderer program with
  | .ok result => return result
  | .error (.render .depthExceeded) => throw .depthExceeded
  | .error error => throw (.internal error.message)

end Work

end Scriptlet.Console
