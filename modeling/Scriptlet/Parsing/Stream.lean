import Scriptlet.Token

/-! The token stream that a parser reads, one token at a time with no way back. -/
namespace Scriptlet

/-- What a parser needed at the place where it failed. -/
inductive Wanted where
  | token (kind : Kind)
  | expression
deriving DecidableEq

def Wanted.label : Wanted → String
  | .token kind => kind.label
  | .expression => "expression"

/-- The complaint about a missing token: the given message, or one made from its kind where the
message is empty. -/
def Wanted.complaint (wanted : Wanted) (message : String) : String :=
  if message = "" then "Expected " ++ wanted.label else message

inductive ParseError where
  /-- Some other token was needed than the one found; `message` says which. -/
  | expected (wanted : Wanted) (found : Token) (message : String)
  | invalidTarget (line : Int)
  | nestedTooDeeply (line : Int)
  /-- A numeric token whose text is no number. -/
  | notNumber (lexeme : String)
  /-- The depth limit was reached by a phrase that is not part of a whole program. -/
  | depthExceeded
deriving DecidableEq

namespace ParseError

def message : ParseError → String
  | .expected _ found message =>
    let seen := if found.kind = .endOfInput then "end of input" else found.lexeme
    message ++ ", got '" ++ seen ++ "' at line " ++ toString found.line
  | .invalidTarget line => "Invalid assignment target at line " ++ toString line
  | .nestedTooDeeply line => "Expression nested too deeply at line " ++ toString line
  | .notNumber lexeme => "could not convert string to float: " ++ Text.quoted lexeme
  | .depthExceeded => "depth limit exceeded"

end ParseError

/-- The token to be read next, those after it, and how many were consumed. `declared` lists the
functions parsed so far with their numbers of parameters. -/
structure Stream where
  current : Token
  ahead : List Token
  pos : Nat
  declared : Array (String × Nat)

namespace Stream

/-- A list of tokens that ends with the end of the input, where that is missing. -/
def terminate (tokens : List Token) : List Token :=
  match tokens.getLast? with
  | none => [⟨.endOfInput, "", 1⟩]
  | some last => if last.kind = .endOfInput then tokens else tokens ++ [⟨.endOfInput, "", last.line⟩]

def ofTokens (tokens : List Token) : Stream :=
  match terminate tokens with
  | [] => ⟨⟨.endOfInput, "", 1⟩, [], 0, #[]⟩
  | first :: ahead => ⟨first, ahead, 0, #[]⟩

/-- The number of tokens not yet consumed. -/
def size (stream : Stream) : Nat :=
  stream.ahead.length + 1

/-- The stream after its current token. The end of the input is never passed. A stream with no token to
move on to would be left at a position that is none of a token. -/
def next (stream : Stream) : Stream :=
  if stream.current.kind = .endOfInput then stream
  else match stream.ahead with
    | [] => { stream with pos := stream.pos + 1 }
    | token :: ahead => { stream with current := token, ahead := ahead, pos := stream.pos + 1 }

end Stream

abbrev Parse := EStateM ParseError Stream

namespace Parse

def current : Parse Token := do
  return (← get).current

/-- Consumes the current token and returns it. -/
def advance : Parse Token := do
  let stream ← get
  set stream.next
  return stream.current

def check (kind : Kind) : Parse Bool := do
  return (← current).kind = kind

/-- Consumes the current token if it has one of the given kinds. -/
def accept (kinds : List Kind) : Parse (Option Token) := do
  if kinds.contains (← current).kind then return some (← advance) else return none

/-- Consumes a token of the given kind, or fails with the message. -/
def expect (kind : Kind) (message : String) : Parse Token := do
  let token ← current
  if token.kind = kind then advance
  else throw (.expected (.token kind) token ((Wanted.token kind).complaint message))

def expectKind (kind : Kind) : Parse Token :=
  expect kind ""

/-- Records a function that was parsed. -/
def noteFunction (name : String) (arity : Nat) : Parse Unit :=
  modify fun stream => { stream with declared := stream.declared.push (name, arity) }

end Parse

end Scriptlet
