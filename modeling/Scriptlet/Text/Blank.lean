import Scriptlet.Text.Range

/-! White space. Source text is laid out with four blank characters; a line typed at the prompt
is trimmed of all Unicode white space. -/
namespace Scriptlet.Text

/-- Space, tab, carriage return or line feed. -/
def isBlank (c : Char) : Bool :=
  c == ' ' || c == '\t' || c == '\r' || c == '\n'

def whiteRanges : List (Nat × Nat) :=
  [(0x9, 0xD), (0x1C, 0x20), (0x85, 0x85), (0xA0, 0xA0), (0x1680, 0x1680), (0x2000, 0x200A),
   (0x2028, 0x2029), (0x202F, 0x202F), (0x205F, 0x205F), (0x3000, 0x3000)]

def isWhite (c : Char) : Bool :=
  inRanges whiteRanges c.toNat

/-- The text without the white space at its two ends. -/
def trim (text : String) : String :=
  String.ofList (((text.toList.dropWhile isWhite).reverse.dropWhile isWhite).reverse)

/-- A text without a line feed at its very end, as its form is judged. -/
def withoutFinalNewline (text : List Char) : List Char :=
  if text.getLast? == some '\n' then text.dropLast else text

end Scriptlet.Text
