import Scratchpad.Decimal.Layout
import Scratchpad.Span
import Scratchpad.Text.Quoted

/-! The tokens of the language, their texts, and the names that messages use for them. -/
namespace Scratchpad

inductive Keyword where
  | defKw | returnKw | ifKw | elifKw | elseKw | whileKw | forKw | inKw | notKw | andKw | orKw
  | isKw | passKw | breakKw | continueKw | globalKw | trueKw | falseKw | noneKw
deriving Repr, DecidableEq

def Keyword.all : List Keyword :=
  [.defKw, .returnKw, .ifKw, .elifKw, .elseKw, .whileKw, .forKw, .inKw, .notKw, .andKw, .orKw,
    .isKw, .passKw, .breakKw, .continueKw, .globalKw, .trueKw, .falseKw, .noneKw]

def Keyword.text : Keyword → String
  | .defKw => "def"
  | .returnKw => "return"
  | .ifKw => "if"
  | .elifKw => "elif"
  | .elseKw => "else"
  | .whileKw => "while"
  | .forKw => "for"
  | .inKw => "in"
  | .notKw => "not"
  | .andKw => "and"
  | .orKw => "or"
  | .isKw => "is"
  | .passKw => "pass"
  | .breakKw => "break"
  | .continueKw => "continue"
  | .globalKw => "global"
  | .trueKw => "True"
  | .falseKw => "False"
  | .noneKw => "None"

def Keyword.ofText? (text : String) : Option Keyword := all.find? (·.text = text)

inductive Symbol where
  | plus | minus | star | doubleStar | slash | doubleSlash | percent
  | eq | ne | lt | le | gt | ge
  | assign | walrus | plusAssign | minusAssign | starAssign | doubleStarAssign | slashAssign
  | doubleSlashAssign | percentAssign
  | leftParen | rightParen | leftBracket | rightBracket | leftBrace | rightBrace
  | comma | colon | dot | semicolon
deriving Repr, DecidableEq

/-- Longer symbols stand before those they start with, so that the first match is the longest. -/
def Symbol.all : List Symbol :=
  [.doubleStarAssign, .doubleSlashAssign,
    .doubleStar, .doubleSlash, .plusAssign, .minusAssign, .starAssign, .slashAssign,
    .percentAssign, .eq, .ne, .le, .ge, .walrus,
    .plus, .minus, .star, .slash, .percent, .lt, .gt, .assign,
    .leftParen, .rightParen, .leftBracket, .rightBracket, .leftBrace, .rightBrace,
    .comma, .colon, .dot, .semicolon]

def Symbol.text : Symbol → String
  | .plus => "+"
  | .minus => "-"
  | .star => "*"
  | .doubleStar => "**"
  | .slash => "/"
  | .doubleSlash => "//"
  | .percent => "%"
  | .eq => "=="
  | .ne => "!="
  | .lt => "<"
  | .le => "<="
  | .gt => ">"
  | .ge => ">="
  | .assign => "="
  | .walrus => ":="
  | .plusAssign => "+="
  | .minusAssign => "-="
  | .starAssign => "*="
  | .doubleStarAssign => "**="
  | .slashAssign => "/="
  | .doubleSlashAssign => "//="
  | .percentAssign => "%="
  | .leftParen => "("
  | .rightParen => ")"
  | .leftBracket => "["
  | .rightBracket => "]"
  | .leftBrace => "\x7b"
  | .rightBrace => "\x7d"
  | .comma => ","
  | .colon => ":"
  | .dot => "."
  | .semicolon => ";"

/-- The closing bracket that an opening one waits for. -/
def Symbol.closer? : Symbol → Option Symbol
  | .leftParen => some .rightParen
  | .leftBracket => some .rightBracket
  | .leftBrace => some .rightBrace
  | _ => none

def Symbol.isCloser : Symbol → Bool
  | .rightParen | .rightBracket | .rightBrace => true
  | _ => false

inductive Token where
  | keyword (k : Keyword)
  | symbol (s : Symbol)
  | name (id : String)
  | text (s : String)
  | int (n : Int64)
  | float (d : Double)
  | newline
  | indent
  | dedent
deriving DecidableEq

def Token.isKeyword : Token → Bool
  | .keyword _ => true
  | _ => false

/-- Is the token one of the layout, which no lexeme is? -/
def Token.isLayout : Token → Bool
  | .newline | .indent | .dedent => true
  | _ => false

/-- The token as it is written. -/
def Token.display : Token → String
  | .keyword k => k.text
  | .symbol s => s.text
  | .name id => id
  | .text s => String.ofList (Text.shown s.toList)
  | .int n => toString n.toInt
  | .float d => Decimal.tokenLayout.write d
  | .newline => "newline"
  | .indent => "indent"
  | .dedent => "dedent"

/-- The token as messages name it. -/
def Token.describe (t : Token) : String :=
  match t with
  | .keyword _ => "keyword '" ++ t.display ++ "'"
  | .symbol _ => "'" ++ t.display ++ "'"
  | .name _ => "name '" ++ t.display ++ "'"
  | .text _ => "string " ++ t.display
  | .int _ | .float _ => "number " ++ t.display
  | .newline | .indent | .dedent => t.display

/-- A token and the place it was read from. -/
structure Token.Placed where
  token : Token
  span : Span
deriving DecidableEq

end Scratchpad
