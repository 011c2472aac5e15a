import ResourceScript.Document.Flaw
import ResourceScript.Json.Basic
import ResourceScript.Text.Numeral

namespace ResourceScript.Json

open Document (Flaw)

def skipBlank (cs : List Char) : List Char :=
  cs.dropWhile fun c => c == ' ' || c == '\t' || c == '\n' || c == '\r'

def after? : List Char → List Char → Option (List Char)
  | [], cs => some cs
  | l :: lead, c :: cs => if l = c then after? lead cs else none
  | _ :: _, [] => none

def readUnit : List Char → Option (Nat × List Char)
  | a :: b :: c :: d :: cs => do
    let digits ← [a, b, c, d].mapM Text.hexValue?
    return (Text.ofDigits 16 digits, cs)
  | _ => none

/-- The glyph of a UTF-16 unit that is not part of a pair. The units `DC80` to `DCFF` stand for raw
bytes; other halves of pairs stand for nothing and become the replacement character. -/
def glyphOfUnit (n : Nat) : Glyph :=
  if 0xDC80 ≤ n ∧ n ≤ 0xDCFF then .byte (UInt8.ofNat (n - 0xDC00))
  else if n.isValidChar then .char (Char.ofNat n)
  else .char '\uFFFD'

def readEscape : List Char → Option (Glyph × List Char)
  | '"' :: cs => some (.char '"', cs)
  | '\\' :: cs => some (.char '\\', cs)
  | '/' :: cs => some (.char '/', cs)
  | 'b' :: cs => some (.char '\x08', cs)
  | 'f' :: cs => some (.char '\x0c', cs)
  | 'n' :: cs => some (.char '\n', cs)
  | 'r' :: cs => some (.char '\r', cs)
  | 't' :: cs => some (.char '\t', cs)
  | 'u' :: cs => do
    let (high, rest) ← readUnit cs
    if 0xD800 ≤ high ∧ high ≤ 0xDBFF then
      match after? ['\\', 'u'] rest >>= readUnit with
      | some (low, rest') =>
        if 0xDC00 ≤ low ∧ low ≤ 0xDFFF then
          return (.char (Char.ofNat (0x10000 + (high - 0xD800) * 0x400 + (low - 0xDC00))), rest')
        else return (glyphOfUnit high, rest)
      | none => return (glyphOfUnit high, rest)
    else return (glyphOfUnit high, rest)
  | _ => none

/-- The rest of a string after its opening quote. The fuel bounds the number of glyphs. -/
def readString : Nat → List Char → Option (Text × List Char)
  | 0, _ => none
  | _, [] => none
  | fuel + 1, c :: cs =>
    if c = '"' then some ([], cs)
    else if c = '\\' then do
      let (g, rest) ← readEscape cs
      let (t, rest) ← readString fuel rest
      return (g :: t, rest)
    else if c.toNat < 0x20 then none
    else do
      let (t, rest) ← readString fuel cs
      return (.char c :: t, rest)

def readFraction : List Char → List Nat × List Char
  | '.' :: cs =>
    match Text.takeDigits cs with
    | ([], _) => ([], '.' :: cs)
    | found => found
  | cs => ([], cs)

def readExponent (cs : List Char) : Option Int × List Char :=
  match cs with
  | c :: rest =>
    if c = 'e' ∨ c = 'E' then
      let (negative, digitsAt) :=
        match rest with
        | '-' :: r => (true, r)
        | '+' :: r => (false, r)
        | r => (false, r)
      match Text.takeDigits digitsAt with
      | ([], _) => (none, cs)
      | (digits, rest) =>
        let n : Int := Text.ofDigits 10 digits
        (some (if negative then -n else n), rest)
    else (none, cs)
  | [] => (none, [])

def readMagnitude (negative : Bool) (cs : List Char) : Except Flaw (Json × List Char) :=
  match Text.takeDigits cs with
  | ([], _) => .error .malformed
  | (digits, rest) =>
    -- A leading zero ends the whole part.
    let (whole, rest) := if digits.head? == some 0 then ([0], cs.drop 1) else (digits, rest)
    let (fraction, rest) := readFraction rest
    let (exponent, rest) := readExponent rest
    if fraction.isEmpty && exponent.isNone then
      match Text.decimal? whole with
      | some n => .ok (.int (if negative then -(n : Int) else n), rest)
      | none => .error (.fault .noSuchValue)
    else
      let size := Decimal.toFloat ⟨Text.ofDigits 10 (whole ++ fraction),
        exponent.getD 0 - fraction.length⟩
      .ok (.float (if negative then -size else size), rest)

def orMalformed (found : Option α) : Except Flaw α :=
  found.elim (.error .malformed) .ok

def readWord (word : String) (value : Json) (cs : List Char) : Except Flaw (Json × List Char) :=
  orMalformed ((after? word.toList cs).map (value, ·))

def depthLimit : Nat := 988

mutual

def readValue (depth : Nat) : Nat → List Char → Except Flaw (Json × List Char)
  | 0, _ => .error .malformed
  | fuel + 1, cs =>
    match cs with
    | '"' :: cs => orMalformed ((readString (cs.length + 1) cs).map fun (t, rest) => (.str t, rest))
    | '{' :: cs =>
      if depth = depthLimit then .error (.fault .nestedTooDeep)
      else
        match skipBlank cs with
        | '}' :: rest => .ok (.obj [], rest)
        | rest => do
          let (members, rest) ← readMembers (depth + 1) fuel rest
          return (.obj (mergeMembers [] members), rest)
    | '[' :: cs =>
      if depth = depthLimit then .error (.fault .nestedTooDeep)
      else
        match skipBlank cs with
        | ']' :: rest => .ok (.arr [], rest)
        | rest => do
          let (items, rest) ← readItems (depth + 1) fuel rest
          return (.arr items, rest)
    | 'n' :: _ => readWord "null" .null cs
    | 't' :: _ => readWord "true" (.bool true) cs
    | 'f' :: _ => readWord "false" (.bool false) cs
    | 'N' :: _ => readWord "NaN" (.float Binary.nan) cs
    | 'I' :: _ => readWord "Infinity" (.float Binary.infinity) cs
    | '-' :: 'I' :: _ => readWord "-Infinity" (.float (-Binary.infinity)) cs
    | '-' :: cs => readMagnitude true cs
    | cs => readMagnitude false cs

def readItems (depth : Nat) : Nat → List Char → Except Flaw (List Json × List Char)
  | 0, _ => .error .malformed
  | fuel + 1, cs => do
    let (item, rest) ← readValue depth fuel (skipBlank cs)
    match skipBlank rest with
    | ',' :: rest =>
      let (items, rest) ← readItems depth fuel rest
      return (item :: items, rest)
    | ']' :: rest => return ([item], rest)
    | _ => .error .malformed

def readMembers (depth : Nat) : Nat → List Char → Except Flaw (List (String × Json) × List Char)
  | 0, _ => .error .malformed
  | fuel + 1, cs =>
    match skipBlank cs with
    | '"' :: cs => do
      let (key, rest) ← orMalformed (readString (cs.length + 1) cs)
      match skipBlank rest with
      | ':' :: rest =>
        let (value, rest) ← readValue depth fuel (skipBlank rest)
        match skipBlank rest with
        | ',' :: rest =>
          let (members, rest) ← readMembers depth fuel rest
          return ((key.toString, value) :: members, rest)
        | '}' :: rest => return ([(key.toString, value)], rest)
        | _ => .error .malformed
      | _ => .error .malformed
    | _ => .error .malformed

end

/-- The value of a JSON text, or why it has none. Every bracket and every item uses up a character,
so twice the length of the text is fuel enough. -/
def parse (cs : List Char) : Except Flaw Json := do
  let (value, rest) ← readValue 0 (2 * cs.length + 2) (skipBlank cs)
  if (skipBlank rest).isEmpty then return value else .error .malformed

end ResourceScript.Json
