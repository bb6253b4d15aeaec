import Scriptlet.Token
import Scriptlet.Text.Letter
import Scriptlet.Text.Numeral
import Scriptlet.Text.Blank

/-! The longest token, and the longest gap between tokens, at the front of a text. Each is given by
its length, so that nothing here depends on where in a source the text stands. -/
namespace Scriptlet.Lexeme

/-- Operators and punctuation. A mark of two characters comes before the marks it starts with. -/
def marks : List (List Char × Kind) :=
  [(['=', '='], .equal), (['!', '='], .notEqual), (['<', '='], .lessEqual),
   (['>', '='], .greaterEqual), (['=', '>'], .arrow),
   (['('], .leftParen), ([')'], .rightParen), (['\x7b'], .leftBrace), (['\x7d'], .rightBrace),
   ([';'], .semicolon), ([','], .comma), (['-'], .minus), (['+'], .plus), (['/'], .slash),
   (['*'], .star), (['!'], .bang), (['='], .assign), (['>'], .greater), (['<'], .less)]

/-- A word goes on with letters, numeric characters and underscores. -/
def isWordChar (c : Char) : Bool :=
  Text.isLetter c || Text.isNumeral c || c == '_'

def digitRun (text : List Char) : Nat :=
  (text.takeWhile Text.isDigit).length

/-- Digits, then a point and more digits. A point with no digit after it is left alone. -/
def numberLength (text : List Char) : Nat :=
  let whole := digitRun text
  match text.drop whole with
  | '.' :: rest =>
    let fraction := digitRun rest
    if fraction = 0 then whole else whole + 1 + fraction
  | _ => whole

/-- The first character, whatever it is, and the word characters after it. -/
def wordLength (text : List Char) : Nat :=
  1 + ((text.drop 1).takeWhile isWordChar).length

def blankLength (text : List Char) : Nat :=
  (text.takeWhile Text.isBlank).length

/-- All characters before the next line feed. -/
def lineLength (text : List Char) : Nat :=
  (text.takeWhile (· != '\n')).length

/-- The length of the blanks and comments at the front, added to `passed`. A comment starts with
two slashes and runs up to the end of its line. -/
def gapLength (comment : Bool) (passed : Nat) : List Char → Nat
  | [] => passed
  | c :: rest =>
    if comment then gapLength (c != '\n') (passed + 1) rest
    else if Text.isBlank c then gapLength false (passed + 1) rest
    else if c == '/' && rest.head? == some '/' then gapLength true (passed + 1) rest
    else passed

def mark? (text : List Char) : Option (Kind × Nat) :=
  (marks.find? fun mark => mark.1.isPrefixOf text).map fun mark => (mark.2, mark.1.length)

/-- The kind and length of the token at the front of a text that starts with no gap. -/
def front? (text : List Char) : Option (Kind × Nat) :=
  match mark? text, text with
  | some found, _ => some found
  | none, [] => none
  | none, c :: _ =>
    if Text.isDigit c then some (.number, numberLength text)
    else if Text.isLetter c then
      let length := wordLength text
      some (Kind.ofWord (String.ofList (text.take length)), length)
    else none

end Scriptlet.Lexeme
