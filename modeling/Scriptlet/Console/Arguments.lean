import Scriptlet.Text.Blank
import Scriptlet.Text.Numeral

/-! The arguments of the command line. Long options may be shortened to any beginning that fits no
other option, and may carry their value after an equals sign. Short options that take no value may
be joined, and the last of a group may take what follows it as its value. After two dashes alone,
everything is a plain argument. -/
namespace Scriptlet.Console

inductive Switch where
  | help | file | interactive | printTokens | printTree | noRun | dumpTree | drawTree | drawFormat
  | verbose
deriving DecidableEq

def Switch.takesValue : Switch → Bool
  | .file | .dumpTree | .drawTree | .drawFormat => true
  | _ => false

def longSwitches : List (String × Switch) :=
  [("--help", .help), ("--file", .file), ("--interactive", .interactive),
   ("--print-tokens", .printTokens), ("--print-ast", .printTree), ("--no-run", .noRun),
   ("--dump-ast", .dumpTree), ("--viz-ast", .drawTree), ("--viz-format", .drawFormat),
   ("--verbose", .verbose)]

def shortSwitches : List (Char × Switch) :=
  [('h', .help), ('f', .file), ('i', .interactive), ('v', .verbose)]

structure Options where
  path : Option String
  file : Option String
  interactive : Bool
  printTokens : Bool
  printTree : Bool
  execute : Bool
  dumpTree : Option String
  drawTree : Option String
  /-- The format of the drawing, unless the switch for it was given without a value. -/
  drawFormat : Option String
  verbose : Bool

def Options.default : Options :=
  ⟨none, none, false, false, false, true, none, none, some "svg", false⟩

/-- What the arguments ask for. -/
inductive Request where
  | run (options : Options)
  | help

/-- The arguments make no sense. -/
inductive Misuse where
  | rejected
deriving DecidableEq

/-- An argument by itself: a plain one, a switch by its short or its long name with the text that is
joined to it, or something that only starts like a switch. -/
inductive Piece where
  | plain (text : String)
  | switch (switch : Switch) (byLetter : Bool) (joined : Option (List Char))
  | unknown

/-- A dash and then digits, perhaps with a point before the last of them. -/
def isNegativeNumber (text : List Char) : Bool :=
  let isDecimal (c : Char) : Bool := (Text.digitValue? c).isSome
  match Text.withoutFinalNewline text with
  | '-' :: number =>
    match number.dropWhile isDecimal with
    | [] => !number.isEmpty
    | '.' :: fraction => !fraction.isEmpty && fraction.all isDecimal
    | _ => false
  | _ => false

/-- An argument that starts like a switch and is none of them. -/
def unknownPiece (text : List Char) : Piece :=
  if isNegativeNumber text || text.contains ' ' then .plain (String.ofList text) else .unknown

/-- The name before the first equals sign, and the value after it. -/
def splitEquals (text : List Char) : List Char × Option (List Char) :=
  match text.dropWhile (· != '=') with
  | [] => (text, none)
  | _ :: value => (text.takeWhile (· != '='), some value)

def longPiece (text : List Char) : Except Misuse Piece :=
  let (name, value) := splitEquals text
  match longSwitches.lookup (String.ofList name) with
  | some switch => return .switch switch false value
  | none =>
    match longSwitches.filter fun known => name.isPrefixOf known.1.toList with
    | [] => return unknownPiece text
    | [(_, switch)] => return .switch switch false value
    | _ => throw .rejected

def piece (text : String) : Except Misuse Piece :=
  match text.toList with
  | '-' :: '-' :: rest => longPiece ('-' :: '-' :: rest)
  | '-' :: c :: rest =>
    match shortSwitches.lookup c, rest with
    | some switch, [] => return .switch switch true none
    | some switch, '=' :: value => return .switch switch true (some value)
    | some switch, joined => return .switch switch true (some joined)
    | none, _ => return unknownPiece ('-' :: c :: rest)
  | _ => return .plain text

/-- What a switch stands for: flags, and then perhaps a switch that takes a value, with the value where
it is joined to the switch. -/
structure Group where
  flags : List Switch
  valued : Option (Switch × Option (List Char))

/-- A group of short switches, from the letters after its first switch. -/
def shortGroup (flags : List Switch) (switch : Switch) : List Char → Except Misuse Group
  | [] =>
    if switch.takesValue then return ⟨flags, some (switch, none)⟩
    else return ⟨flags ++ [switch], none⟩
  | c :: rest =>
    if switch.takesValue then return ⟨flags, some (switch, some (c :: rest))⟩
    else match shortSwitches.lookup c with
      | some next => shortGroup (flags ++ [switch]) next rest
      | none => throw .rejected

/-- The group that a switch stands for. A switch that takes no value is joined only to further short
ones, and not by their long names. -/
def group (switch : Switch) (byLetter : Bool) : Option (List Char) → Except Misuse Group
  | none => shortGroup [] switch []
  | some joined =>
    if switch.takesValue then return ⟨[], some (switch, some joined)⟩
    else if byLetter && !joined.isEmpty then shortGroup [] switch joined
    else throw .rejected

/-- The value that is joined to a switch. Two dashes alone are not a value. -/
def joinedValue (joined : List Char) : Option String :=
  if joined = ['-', '-'] then none else some (String.ofList joined)

/-- How far the arguments have been read. -/
structure Progress where
  options : Options
  /-- Whether an argument was left over. -/
  extra : Bool
  /-- Whether the place of the plain argument is taken. -/
  filled : Bool
  /-- Whether the argument before this one took that place. -/
  justFilled : Bool

namespace Progress

def start : Progress :=
  ⟨.default, false, false, false⟩

/-- Takes a plain argument, or leaves it over. -/
def take (progress : Progress) (text : String) : Progress :=
  if progress.filled then { progress with extra := true, justFilled := false }
  else
    { progress with
      options := { progress.options with path := some text }, filled := true, justFilled := true }

/-- Goes on with other options. -/
def next (progress : Progress) (options : Options) (extra : Bool) : Progress :=
  { progress with options := options, extra := progress.extra || extra, justFilled := false }

def finish (progress : Progress) : Except Misuse Request :=
  if progress.extra then throw .rejected else return .run progress.options

/-- Plain arguments after two dashes. The dashes themselves are left over if the place of the plain
argument was taken by one that does not stand right before them. -/
def finishPlain (progress : Progress) (arguments : List String) : Except Misuse Request :=
  let leftOver := progress.filled && !progress.justFilled
  (arguments.foldl take { progress with extra := progress.extra || leftOver }).finish

end Progress

/-- A file and the interactive mode exclude each other. -/
def Options.checked (options : Options) : Except Misuse Options :=
  if options.file.isSome && options.interactive then throw .rejected else return options

/-- Takes up a switch that has no value. -/
def Options.setFlag (options : Options) : Switch → Options
  | .interactive => { options with interactive := true }
  | .printTokens => { options with printTokens := true }
  | .printTree => { options with printTree := true }
  | .noRun => { options with execute := false }
  | .verbose => { options with verbose := true }
  | _ => options

/-- Takes up a switch with its value, or with none although it takes one. -/
def Options.setValue (options : Options) (value : Option String) : Switch → Options
  | .file => { options with file := some (value.getD "") }
  | .dumpTree => { options with dumpTree := value }
  | .drawTree => { options with drawTree := value }
  | .drawFormat => { options with drawFormat := value }
  | _ => options

/-- Takes up flags one after the other. There are no options left when one of them asks for help. -/
def Options.setFlags (options : Options) : List Switch → Except Misuse (Option Options)
  | [] => return some options
  | .help :: _ => return none
  | switch :: rest => do (← (options.setFlag switch).checked).setFlags rest

/-- Takes up a group that ends with a switch and its value. -/
def Options.setGroup (options : Options) (flags : List Switch) (switch : Switch)
    (value : Option String) : Except Misuse (Option Options) := do
  match ← options.setFlags flags with
  | some next => return some (← (next.setValue value switch).checked)
  | none => return none

/-- Goes on with the options that are left, or with help. -/
def proceed (taken : Except Misuse (Option Options)) (next : Options → Except Misuse Request) :
    Except Misuse Request := do
  match ← taken with
  | some options => next options
  | none => return .help

/-- Reads pieces from left to right; `dashes` are the plain arguments after two dashes, if those were
given. A value that is not joined to its switch is the next argument. -/
def readPieces (dashes : Option (List String)) (progress : Progress) :
    List Piece → Except Misuse Request
  | [] =>
    match dashes with
    | some arguments => progress.finishPlain arguments
    | none => progress.finish
  | .plain text :: pieces => readPieces dashes (progress.take text) pieces
  | .unknown :: pieces => readPieces dashes (progress.next progress.options true) pieces
  | .switch switch byLetter joined :: pieces =>
    match group switch byLetter joined with
    | .error misuse => throw misuse
    | .ok ⟨flags, none⟩ =>
      proceed (progress.options.setFlags flags) fun options =>
        readPieces dashes (progress.next options false) pieces
    | .ok ⟨flags, some (valued, some value)⟩ =>
      proceed (progress.options.setGroup flags valued (joinedValue value)) fun options =>
        readPieces dashes (progress.next options false) pieces
    | .ok ⟨flags, some (valued, none)⟩ =>
      match pieces with
      | .plain value :: rest =>
        proceed (progress.options.setGroup flags valued (some value)) fun options =>
          readPieces dashes (progress.next options false) rest
      | _ => throw .rejected

/-- Reads the arguments of a command line. -/
def readArguments (arguments : List String) : Except Misuse Request := do
  let pieces ← (arguments.takeWhile (· != "--")).mapM piece
  let dashes := match arguments.dropWhile (· != "--") with
    | [] => none
    | _ :: rest => some rest
  readPieces dashes .start pieces

end Scriptlet.Console
