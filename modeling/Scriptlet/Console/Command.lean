import Scriptlet.Text.Blank
import Scriptlet.Console.Process

/-! Commands: a file is run, or lines are typed at a prompt. -/
namespace Scriptlet.Console

/-- Turns each kind of line break into a line feed. `found` is what was read so far, last character
first, and `afterReturn` says whether that ended with a carriage return. -/
def unifyNewlines (afterReturn : Bool) (found : List Char) : List Char → List Char
  | [] => found.reverse
  | c :: rest =>
    if c == '\r' then unifyNewlines true ('\n' :: found) rest
    else if c == '\n' && afterReturn then unifyNewlines false found rest
    else unifyNewlines false (c :: found) rest

/-- A text as it is read from a file or from the keyboard. -/
def plainLines (text : String) : String :=
  String.ofList (unifyNewlines false [] text.toList)

def decode? (content : ByteArray) : Option String :=
  (String.fromUTF8? content).map plainLines

/-- The lines of a text. What follows the last line feed is a line unless it is empty. -/
def lines (text : String) : List String :=
  let parts := text.splitOn "\n"
  if parts.getLast? == some "" then parts.dropLast else parts

/-- The file to be run. Without one, or in interactive mode, lines are typed at a prompt. -/
def Options.source? (options : Options) : Option String :=
  if options.interactive then none else given options.file <|> given options.path

/-- At a prompt nothing is dumped or drawn. -/
def Options.atPrompt (options : Options) : Options :=
  { options with dumpTree := none, drawTree := none }

namespace Work

/-- Runs a file, and gives the exit code. -/
def runFile (limits : Limits) (options : Options) (path : String) : Work Nat := do
  match ← onDisk (OnDisk.read path) with
  | .error error =>
    say ("Failed to read file " ++ path ++ ": " ++ (← diskMessage error))
    return 1
  | .ok content =>
    match decode? content with
    | none => throw .notText
    | some source => return if ← process limits options source then 0 else 1

/-- What is written before the first prompt. -/
def banner : String :=
  "Toy Language REPL\nType 'exit' to quit\n\n"

def promptText : String :=
  ">>> "

/-- One typed line. The answer says whether to go on. -/
def typed (limits : Limits) (options : Options) (line : String) : Work Bool := do
  let trimmed := Text.trim line
  if trimmed == "exit" || trimmed == "quit" then return false
  if trimmed != "" then
    let _ ← process limits options line
  return true

/-- Prompts for lines until one of them asks to leave or there are no more. -/
def prompt (limits : Limits) (options : Options) : List String → Work Unit
  | [] => do
    write promptText
    write "\n"
  | line :: rest => do
    write promptText
    if ← typed limits options line then prompt limits options rest

/-- The work that the options ask for. -/
def start (limits : Limits) (options : Options) (input : List String) : Work Nat := do
  match options.source? with
  | some path => runFile limits options path
  | none =>
    write banner
    prompt limits options.atPrompt input
    return 0

end Work

/-- How a command ends. -/
inductive Ending where
  | exit (code : Nat)
  | misuse
  | crash (crash : Crash)
deriving DecidableEq

/-- A fresh shell on a disk. No program is there that makes pictures. -/
def Shell.fresh (disk : Disk) (verbose : Bool) : Shell :=
  ⟨.fresh, disk, .uninstalled, "", "", verbose⟩

def usage : String :=
  "usage: [--file FILE | --interactive] [--print-tokens] [--print-ast] [--no-run] " ++
    "[--dump-ast PATH] [--viz-ast PATH] [--viz-format FORMAT] [--verbose] [path]\n"

/-- Runs a command with the given arguments, files and typed input. -/
def command (limits : Limits) (arguments : List String) (disk : Disk) (input : String) :
    Ending × Shell :=
  match readArguments arguments with
  | .error _ => (.misuse, .fresh disk false)
  | .ok .help => (.exit 0, { Shell.fresh disk false with stdout := usage })
  | .ok (.run options) =>
    let typed := lines (plainLines input)
    match Work.start limits options typed (.fresh disk options.verbose) with
    | .ok code shell => (.exit code, shell)
    | .error crash shell => (.crash crash, shell)

end Scriptlet.Console
