import ResourceScript.Document.Flaw
import ResourceScript.Text.Numeral
import ResourceScript.Yaml.Token

namespace ResourceScript.Yaml

/-- A simple key: a token that turns into a key if a colon follows it on its line. -/
structure SimpleKey where
  /-- The number of tokens before it. -/
  number : Nat
  /-- A colon has to follow. -/
  required : Bool
  index : Nat
  line : Nat
  column : Nat
  deriving DecidableEq, Repr

/-- A place in a YAML text with the tokens in front of it. -/
structure Spot where
  rest : List Char
  line : Nat := 0
  column : Nat := 0
  index : Nat := 0
  /-- The column of the innermost block, below zero outside of all blocks. -/
  indent : Int := -1
  /-- The columns of the blocks around that one, from the inside out. -/
  outer : List Int := []
  /-- The number of open brackets. -/
  depth : Nat := 0
  /-- Whether a simple key may start here. -/
  keyAllowed : Bool := true
  /-- The tokens that may still turn into keys, by the brackets around them. -/
  keys : List (Nat × SimpleKey) := []
  /-- The tokens so far, the latest first. -/
  tokens : List Token := []

abbrev SpotM := EStateM Document.Flaw Spot

def isBreak (c : Char) : Bool :=
  c == '\n' || c == '\u0085' || c == '\u2028' || c == '\u2029'

def isGap (c : Char) : Bool :=
  c == ' ' || c == '\t' || isBreak c

def endsHere : List Char → Bool
  | [] => true
  | c :: _ => isGap c

def lineEndsHere : List Char → Bool
  | [] => true
  | c :: _ => isBreak c

def isFollowedBy (others : List Char) (cs : List Char) : Bool :=
  match cs with
  | [] => true
  | c :: _ => c == ' ' || isBreak c || others.contains c

def startsMarker (mark : Char) (cs : List Char) : Bool :=
  match cs with
  | a :: b :: c :: rest => a == mark && b == mark && c == mark && endsHere rest
  | _ => false

def startsSeparator (cs : List Char) : Bool :=
  startsMarker '-' cs || startsMarker '.' cs

namespace Spot

/-- The spot behind the next character. A mark of byte order takes no column. -/
def next (s : Spot) : Spot :=
  match s.rest with
  | [] => s
  | c :: cs =>
    if isBreak c then { s with rest := cs, index := s.index + 1, line := s.line + 1, column := 0 }
    else if c = '\uFEFF' then { s with rest := cs, index := s.index + 1 }
    else { s with rest := cs, index := s.index + 1, column := s.column + 1 }

def skip (s : Spot) : Nat → Spot
  | 0 => s
  | n + 1 => s.next.skip n

def isFlow (s : Spot) : Bool :=
  s.depth != 0

def count (s : Spot) : Nat :=
  s.tokens.length

end Spot

namespace SpotM

def rest : SpotM (List Char) := do
  return (← get).rest

def skip (n : Nat := 1) : SpotM Unit :=
  modify (·.skip n)

def takeWhile (p : Char → Bool) : SpotM (List Char) := do
  let taken := (← rest).takeWhile p
  skip taken.length
  return taken

def skipSpaces : SpotM Unit := do
  let _ ← takeWhile (· == ' ')

def skipLine : SpotM Unit := do
  let _ ← takeWhile (!isBreak ·)

/-- The end of a line, if there is one here. It reads as a newline, unless it parts more than lines.
-/
def lineBreak : SpotM (List Char) := do
  match ← rest with
  | c :: _ =>
    if isBreak c then
      skip
      return [if c = '\u0085' then '\n' else c]
    else return []
  | [] => return []

def expect (p : Bool) : SpotM Unit :=
  if p then pure () else throw .malformed

def emit (t : Token) : SpotM Unit :=
  modify fun s => { s with tokens := t :: s.tokens }

def blankLineRest : SpotM Unit := do
  skipSpaces
  if (← rest).head? == some '#' then skipLine
  expect (lineEndsHere (← rest))
  let _ ← lineBreak

def number : SpotM Nat := do
  let digits ← takeWhile fun c => '0' ≤ c && c ≤ '9'
  expect !digits.isEmpty
  match Text.decimal? (digits.map fun c => c.toNat - '0'.toNat) with
  | some n => return n
  | none => throw (.fault .noSuchValue)

def hexNumber (width : Nat) : SpotM Nat := do
  let digits := ((← rest).take width).filterMap Text.hexValue?
  expect (digits.length == width)
  skip width
  return Text.ofDigits 16 digits

end SpotM

end ResourceScript.Yaml
