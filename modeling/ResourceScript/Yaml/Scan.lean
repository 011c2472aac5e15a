import ResourceScript.Yaml.Spot

namespace ResourceScript.Yaml

namespace SpotM

def isWordChar (c : Char) : Bool :=
  c.isAlphanum || c == '-' || c == '_'

def anchorName : SpotM String := do
  skip
  let name ← takeWhile isWordChar
  expect !name.isEmpty
  expect (isFollowedBy ['\t', '?', ':', ',', ']', '\x7d', '%', '@', '`'] (← rest))
  return String.ofList name

def tagHandle : SpotM String := do
  match ← rest with
  | '!' :: ' ' :: _ =>
    skip
    return "!"
  | '!' :: cs =>
    let word := cs.takeWhile isWordChar
    expect ((cs.drop word.length).head? == some '!')
    skip (word.length + 2)
    return String.ofList ('!' :: word ++ ['!'])
  | _ => throw .malformed

def isTagChar (c : Char) : Bool :=
  c.isAlphanum || "-;/?:@&=+$,_.!~*'()[]%".toList.contains c

def escapedBytes (fuel : Nat) : SpotM (List UInt8) := do
  match fuel, ← rest with
  | fuel + 1, '%' :: _ =>
    skip
    let b ← hexNumber 2
    let bytes ← escapedBytes fuel
    return UInt8.ofNat b :: bytes
  | _, _ => return []

def tagText (fuel : Nat) : SpotM (List Char) := do
  match fuel, ← rest with
  | fuel + 1, '%' :: _ =>
    let bytes ← escapedBytes (fuel + 1)
    match String.fromUTF8? ⟨bytes.toArray⟩ with
    | some s => return s.toList ++ (← tagText fuel)
    | none => throw .malformed
  | fuel + 1, c :: _ =>
    if isTagChar c then
      skip
      return c :: (← tagText fuel)
    else return []
  | _, _ => return []

def tagUri (fuel : Nat) : SpotM String := do
  let uri ← tagText fuel
  expect !uri.isEmpty
  return String.ofList uri

/-- A tag: in full between angles, a lone mark, or a short form. -/
def tag (fuel : Nat) : SpotM Token := do
  let found ← match ← rest with
    | _ :: '<' :: _ => do
      skip 2
      let uri ← tagUri fuel
      expect ((← rest).head? == some '>')
      skip
      pure (Token.tag none uri)
    | _ :: cs => do
      if endsHere cs then
        skip
        pure (Token.tag none "!")
      else if (cs.takeWhile fun c => c != ' ' && !isBreak c).contains '!' then
        let handle ← tagHandle
        let uri ← tagUri fuel
        pure (Token.tag (some handle) uri)
      else
        skip
        let uri ← tagUri fuel
        pure (Token.tag (some "!") uri)
    | [] => throw .malformed
  expect (isFollowedBy [] (← rest))
  return found

def directive (fuel : Nat) : SpotM Token := do
  skip
  let name ← takeWhile isWordChar
  expect !name.isEmpty
  expect (isFollowedBy [] (← rest))
  let d ←
    if name = "YAML".toList then do
      skipSpaces
      let major ← number
      expect ((← rest).head? == some '.')
      skip
      let _ ← number
      expect (isFollowedBy [] (← rest))
      pure (Directive.version major)
    else if name = "TAG".toList then do
      skipSpaces
      let handle ← tagHandle
      expect ((← rest).head? == some ' ')
      skipSpaces
      let expansion ← tagUri fuel
      expect (isFollowedBy [] (← rest))
      pure (Directive.tag handle expansion)
    else do
      skipLine
      pure Directive.other
  blankLineRest
  return .directive d

/-- What a line end and the empty lines behind it read as: one end is a blank, and of several the
first does not count. -/
def fold (first : List Char) (more : List Char) : List Char :=
  (if first ≠ ['\n'] then first else if more.isEmpty then [' '] else []) ++ more

def plainWord (flow : Bool) : List Char → List Char
  | [] => []
  | c :: cs =>
    let endsScalar := c == ':' &&
      (endsHere cs || (flow && (cs.head?.any fun d => [',', '[', ']', '\x7b', '\x7d'].contains d)))
    let isBracket := flow && [',', '?', '[', ']', '\x7b', '\x7d'].contains c
    if isGap c || endsScalar || isBracket then [] else c :: plainWord flow cs

def plainBreaks (fuel : Nat) : SpotM (Option (List Char)) := do
  skipSpaces
  match fuel with
  | 0 => return some []
  | fuel + 1 =>
    let ends ← lineBreak
    if ends.isEmpty then return some []
    else if startsSeparator (← rest) then return none
    else return (← plainBreaks fuel).map (ends ++ ·)

def plainGap (fuel : Nat) : SpotM (List Char) := do
  let blanks ← takeWhile (· == ' ')
  let first ← lineBreak
  if first.isEmpty then return blanks
  modify fun s => { s with keyAllowed := true }
  if startsSeparator (← rest) then return []
  match ← plainBreaks fuel with
  | some more => return fold first more
  | none => return []

def plainWords (fuel : Nat) (gap : List Char) : SpotM (List Char) := do
  let s ← get
  match fuel, plainWord s.isFlow s.rest with
  | fuel + 1, c :: cs =>
    if c = '#' then return []
    modify fun s => { s with keyAllowed := false }
    skip (cs.length + 1)
    let next ← plainGap fuel
    let s' ← get
    if next.isEmpty || (!s'.isFlow && (s'.column : Int) < s'.indent + 1) then return gap ++ c :: cs
    else return gap ++ c :: cs ++ (← plainWords fuel next)
  | _, _ => return []

def plainScalar (fuel : Nat) : SpotM Token := do
  let text ← plainWords fuel []
  return .scalar (String.ofList text) true

def quotedBreaks (fuel : Nat) : SpotM (List Char) := do
  expect !(startsSeparator (← rest))
  let _ ← takeWhile fun c => c == ' ' || c == '\t'
  let ends ← lineBreak
  match fuel with
  | fuel + 1 => if ends.isEmpty then return [] else return ends ++ (← quotedBreaks fuel)
  | 0 => return []

def escapes : List (Char × Char) :=
  [('0', Char.ofNat 0), ('a', '\x07'), ('b', '\x08'), ('t', '\t'), ('\t', '\t'), ('n', '\n'),
    ('v', '\x0b'), ('f', '\x0c'), ('r', '\r'), ('e', '\x1b'), (' ', ' '), ('"', '"'), ('\\', '\\'),
    ('/', '/'), ('N', '\u0085'), ('_', '\u00A0'), ('L', '\u2028'), ('P', '\u2029')]

def codeWidths : List (Char × Nat) :=
  [('x', 2), ('u', 4), ('U', 8)]

def escape (fuel : Nat) : SpotM (List Char) := do
  match ← rest with
  | [] => throw .malformed
  | c :: _ =>
    match escapes.lookup c, codeWidths.lookup c with
    | some d, _ =>
      skip
      return [d]
    | none, some width =>
      skip
      let code ← hexNumber width
      if code > 0x7FFFFFFF then throw (.fault .beyondRange)
      if code > 0x10FFFF then throw (.fault .noSuchValue)
      return [Char.ofNat code]
    | none, none =>
      expect (isBreak c)
      skip
      quotedBreaks fuel

def quotedText (mark : Char) (fuel : Nat) : SpotM (List Char) := do
  match fuel, ← rest with
  | fuel + 1, c :: cs =>
    if c = mark then
      skip
      if mark ≠ '"' && cs.head? == some mark then
        skip
        return mark :: (← quotedText mark fuel)
      else return []
    else if c = '\\' && mark == '"' then
      skip
      let found ← escape fuel
      return found ++ (← quotedText mark fuel)
    else if isGap c then
      let blanks ← takeWhile fun c => c == ' ' || c == '\t'
      let first ← lineBreak
      let gap ← if first.isEmpty then pure blanks else do
        let more ← quotedBreaks fuel
        pure (fold first more)
      return gap ++ (← quotedText mark fuel)
    else
      skip
      return c :: (← quotedText mark fuel)
  | _, _ => throw .malformed

def quotedScalar (mark : Char) (fuel : Nat) : SpotM Token := do
  skip
  let text ← quotedText mark fuel
  return .scalar (String.ofList text) false

/-- How a block scalar ends: with one line end, with none, or with all there are. -/
inductive Chomping where
  | clip
  | strip
  | keep
  deriving DecidableEq, Repr

def chompingMark : SpotM Chomping := do
  match ← rest with
  | '+' :: _ =>
    skip
    return .keep
  | '-' :: _ =>
    skip
    return .strip
  | _ => return .clip

def indentMark : SpotM (Option Nat) := do
  match ← rest with
  | c :: _ =>
    if '0' ≤ c && c ≤ '9' then
      expect (c != '0')
      skip
      return some (c.toNat - '0'.toNat)
    else return none
  | [] => return none

def blockMarks : SpotM (Chomping × Option Nat) := do
  let chomping ← chompingMark
  let width ← indentMark
  let chomping ← if chomping = .clip && width.isSome then chompingMark else pure chomping
  expect (isFollowedBy [] (← rest))
  return (chomping, width)

def blockStart (fuel : Nat) (widest : Nat) : SpotM (List Char × Nat) := do
  skipSpaces
  let widest := max widest (← get).column
  match fuel with
  | 0 => return ([], widest)
  | fuel + 1 =>
    let ends ← lineBreak
    if ends.isEmpty then return ([], widest)
    let (more, widest) ← blockStart fuel widest
    return (ends ++ more, widest)

def skipIndent (indent : Nat) : SpotM Unit := do
  let s ← get
  skip ((s.rest.takeWhile (· == ' ')).length.min (indent - s.column))

def blockBreaks (indent fuel : Nat) : SpotM (List Char) := do
  skipIndent indent
  match fuel with
  | 0 => return []
  | fuel + 1 =>
    let ends ← lineBreak
    if ends.isEmpty then return [] else return ends ++ (← blockBreaks indent fuel)

/-- The lines of a block scalar, given the line ends in front of them; also the line ends behind the
last line. -/
def blockLines (folded : Bool) (indent : Nat) (fuel : Nat) (before : List Char) :
    SpotM (List Char × List Char × List Char) := do
  match fuel with
  | 0 => return ([], [], before)
  | fuel + 1 =>
    let isSpaced (cs : List Char) : Bool := cs.head?.any fun c => c == ' ' || c == '\t'
    let spaced := isSpaced (← rest)
    let line ← takeWhile (!isBreak ·)
    let ends ← lineBreak
    let more ← blockBreaks indent fuel
    let s ← get
    if s.column = indent && !s.rest.isEmpty then
      let joint :=
        if folded && ends == ['\n'] && !spaced && !isSpaced s.rest then
          if more.isEmpty then [' '] else []
        else ends
      let (text, last, behind) ← blockLines folded indent fuel more
      return (before ++ line ++ joint ++ text, last, behind)
    else return (before ++ line, ends, more)

def blockScalar (folded : Bool) (fuel : Nat) : SpotM Token := do
  skip
  let (chomping, width) ← blockMarks
  blankLineRest
  let s ← get
  let least := (s.indent + 1).toNat.max 1
  let (before, indent) ← match width with
    | some n => do
      let indent := least + n - 1
      let before ← blockBreaks indent fuel
      pure (before, indent)
    | none => do
      let (before, widest) ← blockStart fuel 0
      pure (before, max least widest)
  let s ← get
  let (text, last, behind) ←
    if s.column = indent && !s.rest.isEmpty then blockLines folded indent fuel before
    else pure ([], [], before)
  let ending := match chomping with
    | .strip => []
    | .clip => last
    | .keep => last ++ behind
  return .scalar (String.ofList (text ++ ending)) false

end SpotM

end ResourceScript.Yaml
