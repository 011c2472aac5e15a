import ResourceScript.Failure
import ResourceScript.Script.StringLiteral

namespace ResourceScript

/-- The next piece of a script: its lexeme, none for a gap, and its characters but the first. -/
structure Piece where
  lexeme : Option Lexeme
  more : List Char
  deriving DecidableEq, Repr

namespace Piece

def gap (more : List Char) : Piece where
  lexeme := none
  more

def token (lexeme : Lexeme) (more : List Char) : Piece where
  lexeme := some lexeme
  more

def isGapChar (c : Char) : Bool :=
  c == ' ' || c == '\t' || c == '\r' || c == '\n'

def isDigit (c : Char) : Bool :=
  '0' ≤ c && c ≤ '9'

def isHexDigit (c : Char) : Bool :=
  (Text.hexValue? c).isSome

def isNameStart (c : Char) : Bool :=
  ('A' ≤ c && c ≤ 'Z') || ('a' ≤ c && c ≤ 'z') || c == '_'

def isNameChar (c : Char) : Bool :=
  isNameStart c || isDigit c

/-- The rest of a block comment up to its first end, given what follows the opening. -/
def commentRest? : List Char → Option (List Char)
  | [] => none
  | '*' :: '/' :: _ => some ['*', '/']
  | c :: cs => (commentRest? cs).map (c :: ·)

/-- The rest of a string literal up to its closing quote, given what follows the opening one. A
backslash takes the character after it along; a line end must not stand alone. -/
def stringRest? : List Char → Option (List Char)
  | [] => none
  | '"' :: _ => some ['"']
  | '\n' :: _ => none
  | ['\\'] => none
  | '\\' :: c :: cs => (stringRest? cs).map fun rest => '\\' :: c :: rest
  | c :: cs => (stringRest? cs).map (c :: ·)

def valueOf (base : Nat) (digits : List Char) : Nat :=
  Text.ofDigits base (digits.map fun c => (Text.hexValue? c).getD 0)

def decimal? (cs : List Char) : Option (List Char × Nat) :=
  match cs.takeWhile isDigit with
  | [] => none
  | digits => some (digits, valueOf 10 digits)

/-- The characters of an unsigned numeral at the front of the input, and its value: decimal, or
hexadecimal after `0x` or `$`. A zero that no hexadecimal digit follows through `x` is decimal. -/
def magnitude? (cs : List Char) : Option (List Char × Nat) :=
  match cs with
  | '0' :: x :: rest =>
    match rest.takeWhile isHexDigit with
    | [] => decimal? cs
    | digits =>
      if x = 'x' ∨ x = 'X' then some ('0' :: x :: digits, valueOf 16 digits) else decimal? cs
  | '$' :: rest =>
    match rest.takeWhile isHexDigit with
    | [] => none
    | digits => some ('$' :: digits, valueOf 16 digits)
  | _ => decimal? cs

def numeral? (cs : List Char) : Option (List Char × Int) :=
  match cs with
  | '-' :: rest => (magnitude? rest).map fun (digits, n) => ('-' :: digits, -(n : Int))
  | _ => (magnitude? cs).map fun (digits, n) => (digits, (n : Int))

def idNumber? (cs : List Char) : Option (List Char × Int) :=
  let (sign, rest) := match cs with
    | '-' :: rest => (['-'], rest)
    | _ => ([], cs)
  match rest.takeWhile isDigit with
  | [] => none
  | digits =>
    let n : Int := valueOf 10 digits
    some (sign ++ digits, if sign.isEmpty then n else -n)

def at? (c : Char) (cs : List Char) : Option Piece :=
  if isGapChar c then some (gap (cs.takeWhile isGapChar))
  else if isNameStart c then some (token .identifier (cs.takeWhile isNameChar))
  else
    match c with
    | '(' => some (token .leftParen [])
    | ')' => some (token .rightParen [])
    | '\x7b' => some (token .leftBrace [])
    | '\x7d' => some (token .rightBrace [])
    | '=' => some (token .equals [])
    | ';' => some (token .semicolon [])
    | ',' => some (token .comma [])
    | '|' => some (token .pipe [])
    | '/' =>
      match cs with
      | '/' :: rest => some (gap ('/' :: rest.takeWhile (· != '\n')))
      | '*' :: rest => (commentRest? rest).map fun more => gap ('*' :: more)
      | _ => none
    | '"' => (stringRest? cs).map fun more => token (.string (unescape more.dropLast)) more
    | '#' => (idNumber? cs).map fun (more, n) => token (.resourceId n) more
    | c => (numeral? (c :: cs)).map fun (digits, n) => token (.integer n) digits.tail

def isTooLong (lexeme : Lexeme) (text : List Char) : Bool :=
  match lexeme with
  | .integer _ | .resourceId _ =>
    let isHex := text.any fun c => c == '$' || c == 'x' || c == 'X'
    !isHex && Text.decimalLimit < (text.filter isDigit).length
  | _ => false

end Piece

def tokenizeFrom (position : Position) : List Char → Except Failure (List Token)
  | [] => .ok [Token.endOfInput position]
  | c :: cs =>
    match Piece.at? c cs with
    | none =>
      .error ((if c = '"' then Problem.unterminatedString else .unexpectedCharacter c).at position)
    | some piece =>
      let text := c :: piece.more
      if piece.lexeme.any (Piece.isTooLong · text) then .error (.fault .noSuchValue)
      else do
        let rest ← tokenizeFrom (position.after text) (cs.drop piece.more.length)
        match piece.lexeme with
        | none => return rest
        | some lexeme => return ⟨lexeme, String.ofList text, position⟩ :: rest
termination_by cs => cs.length
decreasing_by
  rw [List.length_cons, List.length_drop]
  omega

def tokenize (source : String) (path : Option String := none) : Except Failure (List Token) :=
  tokenizeFrom (.start path) source.toList

end ResourceScript
