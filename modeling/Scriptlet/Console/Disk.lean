import Scriptlet.Text.Quoted

/-! The files and folders that a command can see. A path starts at the root or in the working folder,
and is followed name by name: each name but the last must be that of a folder. -/
namespace Scriptlet.Console

inductive Entry where
  | file (content : ByteArray)
  /-- A file that is always empty and swallows what is written to it. -/
  | sink
  | folder (children : List (String × Entry))

/-- The names on the way from the root to an entry. -/
abbrev Place := List String

namespace Entry

def empty : Entry := .folder []

def child? (entry : Entry) (name : String) : Option Entry :=
  match entry with
  | .folder children => children.lookup name
  | _ => none

/-- What stands at a place below. -/
def find? (entry : Entry) : Place → Option Entry
  | [] => some entry
  | name :: rest => (entry.child? name).bind fun child => child.find? rest

/-- Puts another entry in a place below, with the folders on the way to it. -/
def put (entry added : Entry) : Place → Entry
  | [] => added
  | name :: rest =>
    let children := match entry with
      | .folder children => children
      | _ => []
    .folder ((name, ((children.lookup name).getD empty).put added rest) ::
      children.filter (·.1 != name))

mutual

/-- All entries below, each with the way to it, and each after the folder that holds it. -/
def contents (entry : Entry) : List (Place × Entry) :=
  match entry with
  | .folder children => contentsOfAll children
  | _ => []
termination_by structural entry

def contentsOfChild (child : String × Entry) : List (Place × Entry) :=
  match child with
  | (name, entry) => ([name], entry) :: (contents entry).map fun found => (name :: found.1, found.2)
termination_by structural child

def contentsOfAll (children : List (String × Entry)) : List (Place × Entry) :=
  match children with
  | [] => []
  | child :: rest => contentsOfChild child ++ contentsOfAll rest
termination_by structural children

end

end Entry

structure Disk where
  root : Entry
  /-- The working folder. -/
  home : Place

inductive DiskProblem where
  | missing | exists | notFolder | isFolder | nameTooLong
deriving DecidableEq

def DiskProblem.number : DiskProblem → Nat
  | .missing => 2
  | .exists => 17
  | .notFolder => 20
  | .isFolder => 21
  | .nameTooLong => 36

def DiskProblem.text : DiskProblem → String
  | .missing => "No such file or directory"
  | .exists => "File exists"
  | .notFolder => "Not a directory"
  | .isFolder => "Is a directory"
  | .nameTooLong => "File name too long"

inductive DiskError where
  /-- A problem, and the path at which it arose. -/
  | failed (problem : DiskProblem) (path : String)
  /-- The path holds a null character, so that it is none. -/
  | nullInPath
deriving DecidableEq

def DiskError.message : DiskError → String
  | .failed problem path =>
    "[Errno " ++ toString problem.number ++ "] " ++ problem.text ++ ": " ++ Text.quoted path
  | .nullInPath => "embedded null byte"

namespace Path

/-- The names of a path. The first is empty if the path starts at the root, the last if it ends with
a slash. -/
def names (path : String) : List String :=
  path.splitOn "/"

/-- Names without the empty ones at their end. -/
def trim (names : List String) : List String :=
  (names.reverse.dropWhile (· == "")).reverse

/-- The last name of a path. -/
def last (path : String) : String :=
  (names path).getLast?.getD ""

/-- The path of the folder that holds what a path names. It is empty for a single name, and nothing
but slashes only at the root. -/
def parent (path : String) : String :=
  let above := (names path).dropLast
  if above.all (· == "") then String.join (above.map fun _ => "/")
  else String.intercalate "/" (trim above)

/-- The paths of a folder and of those that hold it, innermost first, each with its last name. -/
def chain (path : String) : List (String × String) :=
  let all := names path
  let counts := (List.range all.length).reverse
  counts.filterMap fun count =>
    match all[count]? with
    | none | some "" => none
    | some name => some (String.intercalate "/" (all.take (count + 1)), name)

end Path

namespace Disk

/-- The most bytes that a name may have. -/
def nameLimit : Nat := 255

/-- The most bytes that a path may have. -/
def pathLimit : Nat := 4095

def find? (disk : Disk) (place : Place) : Option Entry :=
  disk.root.find? place

/-- Puts an entry in a place, with the folders on the way to it. -/
def put (disk : Disk) (place : Place) (entry : Entry) : Disk :=
  { disk with root := disk.root.put entry place }

/-- A disk that holds nothing but an empty working folder. -/
def ofHome (home : Place) : Disk :=
  ⟨Entry.empty.put .empty home, home⟩

/-- The usual folders below the root, the sink among the devices, and an empty working folder below
the one for temporary files. -/
def standard : Disk :=
  let folders := ["bin", "etc", "home", "lib", "opt", "proc", "root", "run", "sbin", "sys", "usr", "var"]
  (folders.foldl (fun disk name => disk.put [name] .empty) (ofHome ["tmp", "work"])).put
    ["dev", "null"] .sink

/-- Follows names from a folder, which comes first in `here`, before those that hold it. The last name
need not exist; an empty name or a single dot stays in place, two dots go up. The result is a place
and what stands there. -/
def follow (disk : Disk) (here : List (String × Entry)) :
    List String → Except DiskProblem (Place × Option Entry)
  | [] => .ok ((here.map Prod.fst).reverse, some ((here.map Prod.snd).headD disk.root))
  | name :: rest =>
    if name == "" || name == "." then follow disk here rest
    else if name == ".." then follow disk here.tail rest
    else if nameLimit < name.utf8ByteSize then .error .nameTooLong
    else
      let place := ((name :: here.map Prod.fst).reverse)
      match ((here.map Prod.snd).headD disk.root).child? name with
      | some (.folder children) => follow disk ((name, .folder children) :: here) rest
      | some entry => if rest.isEmpty then .ok (place, some entry) else .error .notFolder
      | none => if rest.isEmpty then .ok (place, none) else .error .missing

/-- Follows the names of a path. An empty first name stands for the root. -/
def walk (disk : Disk) : List String → Except DiskProblem (Place × Option Entry)
  | "" :: rest => disk.follow [] rest
  | names => disk.follow [] (disk.home ++ names)

/-- The names of a path of admissible length. -/
def admissible (path : String) : Except DiskProblem (List String) :=
  if path == "" then .error .missing
  else if pathLimit < path.utf8ByteSize then .error .nameTooLong
  else .ok (Path.names path)

/-- The place that a path names, and what stands there. -/
def locate (disk : Disk) (path : String) : Except DiskProblem (Place × Option Entry) := do
  disk.walk (← admissible path)

/-- The folder that holds the last of some names. -/
def holder (disk : Disk) (names : List String) : Except DiskProblem Place := do
  let (place, _) ← disk.walk (names.dropLast ++ ["."])
  return place

/-- Where a file is to be written, and what stands there. A path that ends with a slash can only name
a folder, once there is a folder to hold it. -/
def locateFile (disk : Disk) (path : String) : Except DiskProblem (Place × Option Entry) := do
  let names ← admissible path
  if names.getLast? == some "" then
    let _ ← disk.holder (Path.trim names)
    throw .isFolder
  disk.walk names

/-- Where a folder is to be made. There must be nothing yet. -/
def locateFolder (disk : Disk) (path : String) : Except DiskProblem Place := do
  let names := Path.trim (← admissible path)
  match names.getLast? with
  | none => throw .exists
  | some name =>
    let _ ← disk.holder names
    if name == "." || name == ".." then throw .exists
    match ← disk.walk names with
    | (place, none) => return place
    | (_, some _) => throw .exists

/-- The entry that a path names, if there is one. -/
def entry? (disk : Disk) (path : String) : Option Entry :=
  if path.toList.contains '\x00' then none
  else match disk.locate path with
    | .ok (_, entry) => entry
    | .error _ => none

def isFolder (disk : Disk) (path : String) : Bool :=
  match disk.entry? path with
  | some (.folder _) => true
  | _ => false

end Disk

/-- Work on a disk. What was done before an error is not undone. -/
abbrev OnDisk := EStateM DiskError Disk

namespace OnDisk

/-- One operation on what a path names. -/
def onPath (path : String) (operation : Disk → Except DiskProblem (α × Disk)) : OnDisk α := fun disk =>
  if path.toList.contains '\x00' then .error .nullInPath disk
  else match operation disk with
    | .ok (result, after) => .ok result after
    | .error problem => .error (.failed problem path) disk

def read (path : String) : OnDisk ByteArray :=
  onPath path fun disk => do
    match ← disk.locate path with
    | (_, some (.file content)) => return (content, disk)
    | (_, some .sink) => return (ByteArray.empty, disk)
    | (_, some (.folder _)) => throw .isFolder
    | (_, none) => throw .missing

/-- Creates or replaces a file. The folder that holds it must exist. -/
def write (path : String) (content : ByteArray) : OnDisk Unit :=
  onPath path fun disk => do
    match ← disk.locateFile path with
    | (_, some (.folder _)) => throw .isFolder
    | (_, some .sink) => return ((), disk)
    | (place, _) => return ((), disk.put place (.file content))

def makeFolder (path : String) : OnDisk Unit :=
  onPath path fun disk => do
    return ((), disk.put (← disk.locateFolder path) .empty)

/-- Makes a folder unless it is there. -/
def ensureFolder (path : String) : OnDisk Unit := fun disk =>
  match makeFolder path disk with
  | .error (.failed problem failedPath) after =>
    if after.isFolder path then .ok () after else .error (.failed problem failedPath) after
  | result => result

/-- Passes over the complaint that something exists. -/
def evenIfExists (action : OnDisk Unit) : OnDisk Unit := fun disk =>
  match action disk with
  | .error (.failed .exists _) after => .ok () after
  | result => result

/-- Makes a folder together with those that hold it, which come innermost first. A file in the place
of a holding folder is only noticed below it, and a single dot needs no folder of its own. -/
def ensureFolders : List (String × String) → OnDisk Unit
  | [] => return ()
  | (path, name) :: outer => do
    let disk ← get
    if outer.head?.any fun above => (disk.entry? above.1).isNone then
      evenIfExists (ensureFolders outer)
      if name == "." then return ()
    ensureFolder path

end OnDisk

end Scriptlet.Console
