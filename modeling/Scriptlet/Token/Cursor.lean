import Scriptlet.Token.Lexeme

/-! Scanning: a cursor that moves over a source text and hands out its tokens. -/
namespace Scriptlet

/-- A character that no token starts with. -/
structure LexError where
  character : Char
  line : Int
deriving DecidableEq

def LexError.message (error : LexError) : String :=
  "Unexpected character '" ++ String.singleton error.character ++ "' at line " ++
    toString error.line

/-- A place in a source text: `rest` is what stands at and after it, `line` the number of its line,
counted from one. A cursor that is moved on past the end keeps counting positions. -/
structure Cursor where
  text : List Char
  rest : List Char
  pos : Nat
  line : Int

namespace Cursor

def ofString (source : String) : Cursor :=
  { text := source.toList, rest := source.toList, pos := 0, line := 1 }

def current? (cursor : Cursor) : Option Char :=
  cursor.rest.head?

/-- The place `count` characters further on. -/
def move (cursor : Cursor) (count : Nat) : Cursor :=
  { cursor with
    rest := cursor.rest.drop count
    pos := cursor.pos + count
    line := cursor.line + ((cursor.rest.take count).count '\n' : Nat) }

/-- The character at some distance, if the text reaches so far. A place before the start of the text
is counted from its end; the outer option is empty when there is no such place either. -/
def peek? (cursor : Cursor) (offset : Int) : Option (Option Char) :=
  let place := cursor.pos + offset
  if 0 ≤ place then some cursor.text[place.toNat]?
  else
    let wrapped := cursor.text.length + place
    if 0 ≤ wrapped then some cursor.text[wrapped.toNat]? else none

end Cursor

abbrev Scan := EStateM LexError Cursor

namespace Scan

/-- Consumes `count` characters and returns them. -/
def take (count : Nat) : Scan String := do
  let cursor ← get
  set (cursor.move count)
  return String.ofList (cursor.rest.take count)

def skip (count : Nat) : Scan Unit :=
  modify (·.move count)

def advance : Scan Unit :=
  skip 1

def skipBlanks : Scan Unit := do
  skip (Lexeme.blankLength (← get).rest)

/-- Skips to the end of the line. -/
def skipLine : Scan Unit := do
  skip (Lexeme.lineLength (← get).rest)

def number : Scan String := do
  take (Lexeme.numberLength (← get).rest)

def word : Scan String := do
  take (Lexeme.wordLength (← get).rest)

/-- The next token. The end of the text is a token too, and stays the next one for ever; a
character that starts no token is not consumed. -/
def next : Scan Token := do
  skip (Lexeme.gapLength false 0 (← get).rest)
  let cursor ← get
  match cursor.rest, Lexeme.front? cursor.rest with
  | [], _ => return ⟨.endOfInput, "", cursor.line⟩
  | _, some (kind, length) => return ⟨kind, ← take length, cursor.line⟩
  | c :: _, none => throw ⟨c, cursor.line⟩

/-- All further tokens up to the end of the text, added to those already found. At most `fuel` are
asked for. -/
def tokensFrom (found : Array Token) : (fuel : Nat) → Scan (Array Token)
  | 0 => return found
  | fuel + 1 => do
    let token ← next
    if token.kind = .endOfInput then return found.push token
    else tokensFrom (found.push token) fuel

/-- Every token but the last one consumes a character, so there are at most one more of them than
characters. -/
def tokens : Scan (List Token) := do
  let found ← tokensFrom #[] ((← get).rest.length + 1)
  return found.toList

end Scan

/-- The tokens of a source text, the last of which stands for its end. -/
def tokenize (source : String) : Except LexError (List Token) :=
  match Scan.tokens (Cursor.ofString source) with
  | .ok tokens _ => .ok tokens
  | .error error _ => .error error

end Scriptlet
