import ResourceScript.Script.Position

namespace ResourceScript

/-- What a token is, with the value of those that denote one. -/
inductive Lexeme where
  | identifier
  | integer (value : Int)
  | resourceId (value : Int)
  | string (value : Text)
  | leftParen
  | rightParen
  | leftBrace
  | rightBrace
  | equals
  | semicolon
  | comma
  | pipe
  | endOfInput
  deriving DecidableEq, Repr

inductive LexemeKind where
  | identifier
  | integer
  | resourceId
  | string
  | leftParen
  | rightParen
  | leftBrace
  | rightBrace
  | equals
  | semicolon
  | comma
  | pipe
  | endOfInput
  deriving DecidableEq, Repr

def Lexeme.kind : Lexeme → LexemeKind
  | identifier => .identifier
  | integer _ => .integer
  | resourceId _ => .resourceId
  | string _ => .string
  | leftParen => .leftParen
  | rightParen => .rightParen
  | leftBrace => .leftBrace
  | rightBrace => .rightBrace
  | equals => .equals
  | semicolon => .semicolon
  | comma => .comma
  | pipe => .pipe
  | endOfInput => .endOfInput

namespace LexemeKind

def all : List LexemeKind :=
  [identifier, integer, resourceId, string, leftParen, rightParen, leftBrace, rightBrace, equals,
    semicolon, comma, pipe, endOfInput]

def name : LexemeKind → String
  | identifier => "identifier"
  | integer => "integer"
  | resourceId => "res_id"
  | string => "string"
  | leftParen => "l_paren"
  | rightParen => "r_paren"
  | leftBrace => "l_brace"
  | rightBrace => "r_brace"
  | equals => "equals"
  | semicolon => "semi"
  | comma => "comma"
  | pipe => "pipe"
  | endOfInput => "eof"

end LexemeKind

structure Token where
  lexeme : Lexeme
  /-- The characters of the script that make up the token. -/
  text : String
  position : Position
  deriving DecidableEq, Repr

namespace Token

def endOfInput (position : Position) : Token where
  lexeme := .endOfInput
  text := ""
  position

def kind (t : Token) : LexemeKind :=
  t.lexeme.kind

def describe (t : Token) : Text :=
  if t.kind = .endOfInput then ResourceScript.text "end of input"
  else ResourceScript.text "'" ++ ResourceScript.text t.text ++ ResourceScript.text "'"

end Token

/-- A shape of tokens: those of a class, perhaps with one spelling only, or all but those. -/
structure Expectation where
  kind : LexemeKind
  text : Option String := none
  expected : Bool := true
  deriving DecidableEq, Repr

namespace Expectation

def ofKind (kind : LexemeKind) : Expectation where
  kind

def word (s : String) : Expectation where
  kind := .identifier
  text := some s

def anythingBut (kind : LexemeKind) : Expectation where
  kind
  expected := false

def fits (e : Expectation) (t : Token) : Bool :=
  t.kind == e.kind && e.text.all (· == t.text)

def isMetBy (e : Expectation) (t : Token) : Bool :=
  e.fits t == e.expected

/-- The shape as messages show it. An empty spelling is shown as the class. -/
def describe (e : Expectation) : Text :=
  let shape := match e.text with
    | some s =>
      if s.isEmpty then ResourceScript.text e.kind.name
      else ResourceScript.text "'" ++ ResourceScript.text s ++ ResourceScript.text "'"
    | none => ResourceScript.text e.kind.name
  if e.expected then shape else ResourceScript.text "anything but " ++ shape

end Expectation

end ResourceScript
