import Scriptlet.Text.Quoted

/-! Tokens: the marks, words and numbers that a source text is made of. -/
namespace Scriptlet

inductive Kind where
  | leftParen | rightParen | leftBrace | rightBrace | semicolon | comma
  | minus | plus | slash | star
  | bang | notEqual | assign | equal | greater | greaterEqual | less | lessEqual | arrow
  | identifier | number
  /-- Reserved: no source text holds a token of this kind. -/
  | string
  | andWord | elseWord | falseWord | fnWord | forWord | ifWord | nullWord | orWord | printWord
  | returnWord | trueWord | varWord | whileWord | matchWord | caseWord
  | endOfInput
deriving DecidableEq, Inhabited

namespace Kind

/-- Every kind, in the order of their numbers. -/
def all : List Kind :=
  [.leftParen, .rightParen, .leftBrace, .rightBrace, .semicolon, .comma, .minus, .plus, .slash,
   .star, .bang, .notEqual, .assign, .equal, .greater, .greaterEqual, .less, .lessEqual, .arrow,
   .identifier, .number, .string, .andWord, .elseWord, .falseWord, .fnWord, .forWord, .ifWord,
   .nullWord, .orWord, .printWord, .returnWord, .trueWord, .varWord, .whileWord, .matchWord,
   .caseWord, .endOfInput]

def label : Kind → String
  | .leftParen => "LPAREN"
  | .rightParen => "RPAREN"
  | .leftBrace => "LBRACE"
  | .rightBrace => "RBRACE"
  | .semicolon => "SEMICOLON"
  | .comma => "COMMA"
  | .minus => "MINUS"
  | .plus => "PLUS"
  | .slash => "SLASH"
  | .star => "STAR"
  | .bang => "NOT"
  | .notEqual => "NEQ"
  | .assign => "ASSIGN"
  | .equal => "EQ"
  | .greater => "GT"
  | .greaterEqual => "GTE"
  | .less => "LT"
  | .lessEqual => "LTE"
  | .arrow => "ARROW"
  | .identifier => "IDENTIFIER"
  | .number => "NUMBER"
  | .string => "STRING"
  | .andWord => "AND"
  | .elseWord => "ELSE"
  | .falseWord => "FALSE"
  | .fnWord => "FN"
  | .forWord => "FOR"
  | .ifWord => "IF"
  | .nullWord => "NULL"
  | .orWord => "OR"
  | .printWord => "PRINT"
  | .returnWord => "RETURN"
  | .trueWord => "TRUE"
  | .varWord => "VAR"
  | .whileWord => "WHILE"
  | .matchWord => "MATCH"
  | .caseWord => "CASE"
  | .endOfInput => "EOF"

def ofLabel? (label : String) : Option Kind :=
  all.find? (·.label == label)

/-- The reserved words. -/
def keywords : List (String × Kind) :=
  [("and", .andWord), ("else", .elseWord), ("false", .falseWord), ("fn", .fnWord),
   ("for", .forWord), ("if", .ifWord), ("null", .nullWord), ("or", .orWord),
   ("print", .printWord), ("return", .returnWord), ("true", .trueWord), ("var", .varWord),
   ("while", .whileWord), ("match", .matchWord), ("case", .caseWord)]

/-- A word is a keyword or else an identifier. -/
def ofWord (word : String) : Kind :=
  (keywords.lookup word).getD .identifier

end Kind

/-- A kind, the text the token was written with, and the line it starts on. Tokens made by hand may
carry any text and line. -/
structure Token where
  kind : Kind
  lexeme : String
  line : Int
deriving DecidableEq, Inhabited

namespace Token

/-- The listing form, as in `NUMBER 1.5 3`. -/
def listing (token : Token) : String :=
  token.kind.label ++ " " ++ token.lexeme ++ " " ++ toString token.line

/-- The constructor form, as in `Token(NUMBER, '1.5', line=3)`. -/
def form (token : Token) : String :=
  "Token(" ++ token.kind.label ++ ", " ++ Text.quoted token.lexeme ++ ", line=" ++
    toString token.line ++ ")"

end Token

end Scriptlet
