import Scriptlet.Console.Command

/-! The program itself. It shows the shell that part of the disk which the arguments name, and writes
back what the shell has changed there. -/
namespace Scriptlet.Outer

open Scriptlet.Console

/-- The paths that the options name, each after the folders above it. -/
def namedPaths (options : Options) : List String :=
  let named := [options.file, options.path, options.dumpTree, options.drawTree].filterMap given
  named.flatMap fun path =>
    let names := path.splitOn "/"
    (List.range names.length).map fun count => String.intercalate "/" (names.take (count + 1))

/-- A disk with the working folder. -/
def workingDisk : IO Disk := do
  return .ofHome (((← IO.currentDir).toString.splitOn "/").filter (· != ""))

/-- Copies what stands at a path into the disk of the shell. -/
def load (disk : Disk) (path : String) : IO Disk := do
  match disk.locate path with
  | .error _ | .ok (_, some _) => return disk
  | .ok (place, none) =>
    try
      if ← (← IO.FS.realPath path).isDir then return disk.put place .empty
      else return disk.put place (.file (← IO.FS.readBinFile path))
    catch _ => return disk

def rootPath (place : Place) : String :=
  "/" ++ String.intercalate "/" place

/-- Writes the files that are new or have other contents, with the folders that hold them. -/
def store (before after : Disk) : IO Unit := do
  for (place, entry) in after.root.contents do
    match entry, before.find? place with
    | .folder _, none => IO.FS.createDirAll (rootPath place)
    | .file content, some (.file old) =>
      if content != old then IO.FS.writeBinFile (rootPath place) content
    | .file content, _ => IO.FS.writeBinFile (rootPath place) content
    | _, _ => pure ()

/-- Hands out what the shell has written, and empties its channels. -/
def emit (shell : Shell) : IO Shell := do
  let out ← IO.getStdout
  out.putStr shell.stdout
  out.flush
  (← IO.getStderr).putStr shell.stderr
  return { shell with stdout := "", stderr := "" }

def explain : Crash → String
  | .notText => "the source file is not UTF-8"
  | .nullInPath => DiskError.nullInPath.message
  | .depthExceeded => "the tree is too deep to be shown"
  | .internal message => message

/-- Takes a step of the shell's work; a crash ends the program. -/
def perform (work : Work α) (shell : Shell) : IO (Option α × Shell) := do
  match work shell with
  | .ok result after => return (some result, ← emit after)
  | .error crash after =>
    let rest ← emit after
    (← IO.getStderr).putStrLn (explain crash)
    return (none, rest)

/-- Prompts for lines until the shell has enough of them. `pending` are lines that were read together
with the last one. -/
partial def converse (options : Options) (pending : List String) (shell : Shell) : IO UInt32 := do
  match pending with
  | line :: others =>
    match ← perform (Work.typed Limits.standard options line) shell with
    | (some true, after) =>
      let (_, prompted) ← perform (Work.write Work.promptText) after
      converse options others prompted
    | (some false, _) => return 0
    | (none, _) => return 1
  | [] =>
    let text ← (← IO.getStdin).getLine
    if text.isEmpty then
      let _ ← perform (Work.write "\n") shell
      return 0
    else converse options (lines (plainLines text)) shell

def runOptions (options : Options) : IO UInt32 := do
  let shell := Shell.fresh (← (namedPaths options).foldlM load (← workingDisk)) options.verbose
  match options.source? with
  | some path =>
    let (code, after) ← perform (Work.runFile Limits.standard options path) shell
    store shell.disk after.disk
    return (code.getD 1).toUInt32
  | none =>
    let (_, prompted) ← perform (Work.write (Work.banner ++ Work.promptText)) shell
    converse options.atPrompt [] prompted

end Scriptlet.Outer

def main (arguments : List String) : IO UInt32 := do
  match Scriptlet.Console.readArguments arguments with
  | .error _ =>
    (← IO.getStderr).putStr Scriptlet.Console.usage
    return 2
  | .ok .help =>
    (← IO.getStdout).putStr Scriptlet.Console.usage
    return 0
  | .ok (.run options) => Scriptlet.Outer.runOptions options
