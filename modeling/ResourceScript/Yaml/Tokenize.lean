import ResourceScript.Yaml.Scan

namespace ResourceScript.Yaml

/-- Whether a token can no longer turn into a key, because the line or a length of 1024 characters
has come between. -/
def Spot.isStale (s : Spot) (k : SimpleKey) : Bool :=
  k.line != s.line || s.index - k.index > 1024

namespace SpotM

def dropStaleKeys : SpotM Unit := do
  let s ← get
  expect !(s.keys.any fun k => s.isStale k.2 && k.2.required)
  set { s with keys := s.keys.filter fun k => !s.isStale k.2 }

def dropKey : SpotM Unit := do
  let s ← get
  expect !((s.keys.lookup s.depth).any (·.required))
  set { s with keys := s.keys.filter (·.1 != s.depth) }

def saveKey : SpotM Unit := do
  let s ← get
  if s.keyAllowed then
    dropKey
    let key : SimpleKey := {
      number := s.count
      required := !s.isFlow && s.indent == s.column
      index := s.index
      line := s.line
      column := s.column }
    modify fun s => { s with keys := (s.depth, key) :: s.keys }

def allowKey (allowed : Bool) : SpotM Unit :=
  modify fun s => { s with keyAllowed := allowed }

def closeBlocks (column : Int) : SpotM Unit :=
  modify fun s => if s.isFlow then s else close s.indent s.outer s
where
  /-- Closes blocks from the inside out. -/
  close (indent : Int) (outer : List Int) (s : Spot) : Spot :=
    if column < indent then
      match outer with
      | i :: is => close i is { s with indent := i, outer := is, tokens := .blockEnd :: s.tokens }
      | [] => s
    else s

def insertAt (number : Nat) (t : Token) : SpotM Unit :=
  modify fun s =>
    let behind := s.count - number
    { s with tokens := s.tokens.take behind ++ t :: s.tokens.drop behind }

/-- Opens a block at a column, unless one is open there; the token that starts it goes behind a
number of tokens. -/
def openBlock (column number : Nat) (t : Token) : SpotM Unit := do
  let s ← get
  if s.indent < column then
    set { s with indent := column, outer := s.indent :: s.outer }
    insertAt number t

def blockMark (start mark : Token) (keyNext : Bool) : SpotM Unit := do
  let s ← get
  if !s.isFlow then
    expect s.keyAllowed
    openBlock s.column s.count start
  allowKey keyNext
  dropKey
  skip
  emit mark

/-- The colon before a value, which turns the token before it into a key if it can be one. -/
def valueMark : SpotM Unit := do
  let s ← get
  match s.keys.lookup s.depth with
  | some key =>
    set { s with keys := s.keys.filter (·.1 != s.depth) }
    insertAt key.number .key
    if !s.isFlow then openBlock key.column key.number .blockMappingStart
    allowKey false
    skip
    emit .value
  | none => blockMark .blockMappingStart .value !s.isFlow

def openFlow (t : Token) : SpotM Unit := do
  saveKey
  modify fun s => { s with depth := s.depth + 1 }
  allowKey true
  skip
  emit t

def closeFlow (t : Token) : SpotM Unit := do
  dropKey
  expect ((← get).depth != 0)
  modify fun s => { s with depth := s.depth - 1 }
  allowKey false
  skip
  emit t

def keyable (scan : SpotM Token) : SpotM Unit := do
  saveKey
  allowKey false
  let t ← scan
  emit t

def documentMark (scan : SpotM Token) : SpotM Unit := do
  closeBlocks (-1)
  dropKey
  allowKey false
  let t ← scan
  emit t

def skipGap (fuel : Nat) : SpotM Unit := do
  skipSpaces
  if (← rest).head? == some '#' then skipLine
  match fuel with
  | 0 => return
  | fuel + 1 =>
    let ends ← lineBreak
    if ends.isEmpty then return
    if !(← get).isFlow then allowKey true
    skipGap fuel

def indicators : List Char :=
  ['-', '?', ':', ',', '[', ']', '\x7b', '\x7d', '#', '&', '*', '!', '|', '>', Char.ofNat 0x27, '"',
    '%', '@', '`']

def startsPlain (flow : Bool) (c : Char) (cs : List Char) : Bool :=
  (!isGap c && !indicators.contains c) ||
    (!endsHere cs && (c == '-' || (!flow && (c == '?' || c == ':'))))

def token (fuel : Nat) (c : Char) (cs : List Char) : SpotM Unit := do
  let s ← get
  let atStart := s.column == 0
  let flow := s.isFlow
  if c = '%' && atStart then documentMark (directive fuel)
  else if atStart && startsMarker '-' (c :: cs) then
    documentMark do
      skip 3
      pure .documentStart
  else if atStart && startsMarker '.' (c :: cs) then
    documentMark do
      skip 3
      pure .documentEnd
  else if c = '[' then openFlow .flowSequenceStart
  else if c = '\x7b' then openFlow .flowMappingStart
  else if c = ']' then closeFlow .flowSequenceEnd
  else if c = '\x7d' then closeFlow .flowMappingEnd
  else if c = ',' then
    allowKey true
    dropKey
    skip
    emit .flowEntry
  else if c = '-' && endsHere cs then blockMark .blockSequenceStart .blockEntry true
  else if c = '?' && (flow || endsHere cs) then blockMark .blockMappingStart .key !flow
  else if c = ':' && (flow || endsHere cs) then valueMark
  else if c = '*' then keyable (.alias <$> anchorName)
  else if c = '&' then keyable (.anchor <$> anchorName)
  else if c = '!' then keyable (tag fuel)
  else if (c = '|' || c = '>') && !flow then
    allowKey true
    dropKey
    let t ← blockScalar (c == '>') fuel
    emit t
  else if c = '"' || c = Char.ofNat 0x27 then keyable (quotedScalar c fuel)
  else if startsPlain flow c cs then keyable (plainScalar fuel)
  else throw .malformed

/-- The next token with what it shows of the indentation before it. There is none at the end of the
text. -/
def nextToken (fuel : Nat) : SpotM Bool := do
  skipGap fuel
  dropStaleKeys
  closeBlocks (← get).column
  match ← rest with
  | c :: cs =>
    token fuel c cs
    return true
  | [] =>
    closeBlocks (-1)
    dropKey
    return false

end SpotM

/-- The tokens of a text as far as it can be read, and why it cannot be read on. -/
structure Tokens where
  known : List Token
  flaw : Option Document.Flaw := none

namespace Spot

def settled (s : Spot) : Nat :=
  (s.keys.filter fun k => !s.isStale k.2).foldl (fun n k => min n k.2.number) s.count

/-- The tokens so far and those up to the end of the text, or up to where there is no token. Every
token takes up a character, so that the fuel stays above the number of characters that are left. -/
def readOn : Nat → Spot → Tokens
  | 0, s => { known := s.tokens.reverse }
  | fuel + 1, s =>
    match SpotM.nextToken (fuel + 1) s with
    | .ok true s' => readOn fuel s'
    | .ok false s' => { known := s'.tokens.reverse }
    | .error flaw _ => { known := s.tokens.reverse.take s.settled, flaw }

end Spot

def isAllowed (c : Char) : Bool :=
  let n := c.toNat
  c == '\t' || c == '\n' || c == '\r' || (0x20 ≤ n && n ≤ 0x7E) || n == 0x85 ||
    (0xA0 ≤ n && n ≤ 0xFFFD) ||
    0x10000 ≤ n

/-- The tokens of a YAML text. A mark of byte order at its start counts for nothing. -/
def tokenize (source : List Char) : Tokens :=
  let text := Text.unifyNewlines source
  if !text.all isAllowed then { known := [], flaw := some .malformed }
  else
    let text := if text.head? = some '\uFEFF' then text.drop 1 else text
    Spot.readOn (text.length + 1) { rest := text }

end ResourceScript.Yaml
