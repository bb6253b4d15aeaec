import Scriptlet.Number.Style
import Scriptlet.Text.Quoted

/-! JSON values with fields in order, and their text. Numbers keep their sort: a double is written
with a point or an exponent, an integer with digits alone. -/
namespace Scriptlet

inductive Json where
  | null
  | bool (value : Bool)
  | number (value : Float)
  | integer (value : Int)
  | string (value : String)
  | array (items : List Json)
  | object (fields : List (String × Json))
deriving Inhabited

namespace Json

/-- A UTF-16 unit as an escape. -/
def unitEscape (unit : Nat) : List Char :=
  '\\' :: 'u' :: Text.hex 4 unit

/-- One character of a string. Everything outside printable ASCII is escaped, and a character
beyond the basic plane becomes a surrogate pair. -/
def escape (c : Char) : List Char :=
  if c == '"' then ['\\', '"']
  else if c == '\\' then ['\\', '\\']
  else if c == '\n' then ['\\', 'n']
  else if c == '\r' then ['\\', 'r']
  else if c == '\t' then ['\\', 't']
  else if c.toNat == 0x08 then ['\\', 'b']
  else if c.toNat == 0x0C then ['\\', 'f']
  else if 0x20 ≤ c.toNat && c.toNat ≤ 0x7E then [c]
  else if c.toNat < 0x10000 then unitEscape c.toNat
  else
    let offset := c.toNat - 0x10000
    unitEscape (0xD800 + offset / 0x400) ++ unitEscape (0xDC00 + offset % 0x400)

/-- A string in double quotes, in front of `rest`. -/
def writeString (value : String) (rest : List Char) : List Char :=
  '"' :: (value.toList.flatMap escape ++ '"' :: rest)

/-- A new line, indented by two spaces for each level. -/
def newline (level : Nat) (rest : List Char) : List Char :=
  '\n' :: (List.replicate (2 * level) ' ' ++ rest)

mutual

/-- The text of a value on a line of the given level, in front of `rest`. -/
def write (level : Nat) (json : Json) (rest : List Char) : List Char :=
  match json with
  | .null => "null".toList ++ rest
  | .bool value => (if value then "true" else "false").toList ++ rest
  | .number value => (Number.Style.json.text value).toList ++ rest
  | .integer value => (toString value).toList ++ rest
  | .string value => writeString value rest
  | .array [] => '[' :: ']' :: rest
  | .array (first :: others) =>
    '[' :: newline (level + 1)
      (write (level + 1) first (writeItems (level + 1) others (newline level (']' :: rest))))
  | .object [] => '\x7b' :: '\x7d' :: rest
  | .object (first :: others) =>
    '\x7b' :: newline (level + 1)
      (writeField (level + 1) first (writeFields (level + 1) others (newline level ('\x7d' :: rest))))
termination_by structural json

/-- The items after the first one, each on a line of its own. -/
def writeItems (level : Nat) (items : List Json) (rest : List Char) : List Char :=
  match items with
  | [] => rest
  | item :: others => ',' :: newline level (write level item (writeItems level others rest))
termination_by structural items

def writeField (level : Nat) (field : String × Json) (rest : List Char) : List Char :=
  match field with
  | (name, value) => writeString name (':' :: ' ' :: write level value rest)
termination_by structural field

def writeFields (level : Nat) (fields : List (String × Json)) (rest : List Char) : List Char :=
  match fields with
  | [] => rest
  | field :: others =>
    ',' :: newline level (writeField level field (writeFields level others rest))
termination_by structural fields

end

/-- The indented text of a value. -/
def text (json : Json) : String :=
  String.ofList (json.write 0 [])

end Json

end Scriptlet
