import ResourceScript.Bytes.Base64
import ResourceScript.Document.Basic
import ResourceScript.Document.Flaw
import ResourceScript.Text.Numeral
import ResourceScript.Yaml.Node

namespace ResourceScript.Yaml.Scalar

def isDigit (c : Char) : Bool :=
  '0' ≤ c && c ≤ '9'

def isDigitOrGap (c : Char) : Bool :=
  isDigit c || c == '_'

def nullWords : List String :=
  ["~", "null", "Null", "NULL", ""]

def trueWords : List String :=
  ["yes", "Yes", "YES", "true", "True", "TRUE", "on", "On", "ON"]

def falseWords : List String :=
  ["no", "No", "NO", "false", "False", "FALSE", "off", "Off", "OFF"]

def isSixtieths (cs : List Char) : Bool :=
  match cs with
  | [d] => isDigit d
  | [c, d] => '0' ≤ c && c ≤ '5' && isDigit d
  | _ => false

def isGroupedDigits : List Char → Bool
  | c :: cs => isDigit c && cs.all isDigitOrGap
  | [] => false

def isInteger (cs : List Char) : Bool :=
  match (Text.splitSign cs).2 with
  | ['0'] => true
  | '0' :: 'b' :: ds => !ds.isEmpty && ds.all fun c => c == '0' || c == '1' || c == '_'
  | '0' :: 'x' :: ds => !ds.isEmpty && ds.all fun c => (Text.hexValue? c).isSome || c == '_'
  | '0' :: ds => ds.all fun c => ('0' ≤ c && c ≤ '7') || c == '_'
  | ds =>
    match ds.splitOnP (· == ':') with
    | first :: others => isGroupedDigits first && others.all isSixtieths
    | [] => false

def isExponent : List Char → Bool
  | [] => true
  | e :: sign :: d :: ds => (e == 'e' || e == 'E') && (sign == '+' || sign == '-') &&
    (d :: ds).all isDigit
  | _ => false

def isFraction (cs : List Char) : Bool :=
  isExponent (cs.dropWhile isDigitOrGap)

def splitPoint (cs : List Char) : Option (List Char × List Char) :=
  match cs.dropWhile (· != '.') with
  | _ :: behind => some (cs.takeWhile (· != '.'), behind)
  | [] => none

def infinityWords : List String :=
  [".inf", ".Inf", ".INF"]

def nanWords : List String :=
  [".nan", ".NaN", ".NAN"]

def isFloat (cs : List Char) : Bool :=
  let (_, unsigned) := Text.splitSign cs
  if nanWords.contains (String.ofList cs) || infinityWords.contains (String.ofList unsigned) then
    true
  else
    match splitPoint unsigned with
    | some ([], behind) => unsigned == cs && (behind.head?.any isDigit) && isFraction behind
    | some (whole, behind) =>
      match whole.splitOnP (· == ':') with
      | [ds] => isGroupedDigits ds && isFraction behind
      | first :: others => isGroupedDigits first && others.all isSixtieths &&
        behind.all isDigitOrGap
      | [] => false
    | none => false

structure TimeForm where
  date : Date
  clock : Option Clock
  deriving DecidableEq, Repr

def takeNumber (least most : Nat) (cs : List Char) : Option (Nat × List Char) :=
  let ds := (cs.take most).takeWhile isDigit
  if ds.length < least then none
  else some (Text.ofDigits 10 (ds.map fun c => c.toNat - '0'.toNat), cs.drop ds.length)

def after? (c : Char) : List Char → Option (List Char)
  | d :: cs => if c = d then some cs else none
  | [] => none

def microseconds (cs : List Char) : Nat × List Char :=
  match cs with
  | '.' :: rest =>
    let ds := (rest.takeWhile isDigit).take 6
    let padded := ds ++ List.replicate (6 - ds.length) '0'
    (Text.ofDigits 10 (padded.map fun c => c.toNat - '0'.toNat), rest.dropWhile isDigit)
  | _ => (0, cs)

def isBlank (c : Char) : Bool :=
  c == ' ' || c == '\t'

def zone? (cs : List Char) : Option (Option Int) :=
  match cs.dropWhile isBlank with
  | [] => if cs.isEmpty then some none else none
  | ['Z'] => some (some 0)
  | sign :: rest => do
    if sign ≠ '+' ∧ sign ≠ '-' then none
    let (hours, rest) ← takeNumber 1 2 rest
    let minutes ← match rest with
      | [] => some 0
      | _ => do
        let (minutes, rest) ← takeNumber 2 2 (← after? ':' rest)
        if rest.isEmpty then some minutes else none
    let size : Int := hours * 60 + minutes
    some (some (if sign = '-' then -size else size))

def clock? (cs : List Char) : Option Clock := do
  let rest ← match cs with
    | 'T' :: rest | 't' :: rest => some rest
    | c :: rest => if isBlank c then some (rest.dropWhile isBlank) else none
    | [] => none
  let (hour, rest) ← takeNumber 1 2 rest
  let (minute, rest) ← takeNumber 2 2 (← after? ':' rest)
  let (second, rest) ← takeNumber 2 2 (← after? ':' rest)
  let (microsecond, rest) := microseconds rest
  let zone ← zone? rest
  return { hour, minute, second, microsecond, zone }

def timeForm? (cs : List Char) : Option TimeForm := do
  let (year, rest) ← takeNumber 4 4 cs
  let afterYear ← after? '-' rest
  let (month, rest) ← takeNumber 1 2 afterYear
  let afterMonth ← after? '-' rest
  let (day, rest) ← takeNumber 1 2 afterMonth
  if rest.isEmpty then
    return { date := { year, month, day }, clock := none }
  else
    let clock ← clock? rest
    return { date := { year, month, day }, clock }

/-- Whether the text of a plain scalar is a date or moment. Without a time, month and day take two
digits. -/
def isTimestamp (cs : List Char) : Bool :=
  (timeForm? cs).any fun form => form.clock.isSome || cs.length == 10

def dropLineEnd (cs : List Char) : List Char :=
  if cs.length > 1 && cs.getLast? == some '\n' then cs.dropLast else cs

/-- The tag of a plain scalar. A line end behind it does not count. -/
def tagOf (text : String) : Tag :=
  let cs := dropLineEnd text.toList
  let word := String.ofList cs
  if trueWords.contains word || falseWords.contains word then .bool
  else if isFloat cs then .float
  else if isInteger cs then .int
  else if word = "<<" then .merge
  else if nullWords.contains word then .null
  else if isTimestamp cs then .timestamp
  else if word = "=" then .default
  else .str

open Document (Flaw)

def orFault (fault : Fault) (value : Option α) : Except Flaw α :=
  value.elim (.error (.fault fault)) .ok

def boolOf (text : String) : Except Flaw Document :=
  let word := text.map Char.toLower
  if trueWords.contains word then .ok (.bool true)
  else if falseWords.contains word then .ok (.bool false)
  else .error (.fault .noTruthValue)

/-- The text of a number without gaps: whether it has a minus sign, and what is behind the sign. -/
def signed (cs : List Char) : Except Flaw (Bool × List Char) :=
  match cs.filter (· != '_') with
  | [] => .error (.fault .emptyNumber)
  | ds => .ok (Text.splitSign ds)

def places (cs : List Char) : List (List Char) :=
  (cs.splitOnP (· == ':')).reverse

/-- An integer: binary, hexadecimal or octal behind a zero, a number of sixtieths, or decimal. -/
def intOf (cs : List Char) : Except Flaw Document := do
  let (negative, ds) ← signed cs
  let size ← match ds with
    | [] => throw (.fault .emptyNumber)
    | ['0'] => pure 0
    | '0' :: 'b' :: ds => orFault .noSuchValue (Text.intIn? 2 ds)
    | '0' :: 'x' :: ds => orFault .noSuchValue (Text.intIn? 16 ds)
    | '0' :: _ => orFault .noSuchValue (Text.intIn? 8 ds)
    | _ => do
      let values ← orFault .noSuchValue ((places ds).mapM (Text.intIn? 10))
      pure (values.foldr (fun value sum => sum * 60 + value) 0)
  return .int (if negative then -size else size)

def weight? (place : Nat) : Option Float :=
  let w := Decimal.toFloat ⟨Nat.pow 60 place, 0⟩
  if w.isFinite then some w else none

def sumOfPlaces (place : Nat) (sum : Float) : List Float → Option Float
  | [] => some sum
  | value :: values => do
    let weight ← weight? place
    sumOfPlaces (place + 1) (sum + value * weight) values

/-- A floating-point number: a word, a number of sixtieths, or decimal. -/
def floatOf (cs : List Char) : Except Flaw Document := do
  let (negative, ds) ← signed (cs.map Char.toLower)
  let size ←
    if ds = ".inf".toList then pure Binary.infinity
    else if ds = ".nan".toList then pure Binary.nan
    else if ds.contains ':' then do
      let values ← orFault .noSuchValue ((places ds).mapM Text.floatOf?)
      orFault .beyondRange (sumOfPlaces 0 0.0 values)
    else orFault .noSuchValue (Text.floatOf? ds)
  return .float (if negative then -size else size)

def bytesOf (cs : List Char) : Except Flaw Document :=
  match Base64.decode? cs with
  | some b => if cs.all (·.toNat < 0x80) then .ok (.bytes b) else .error .malformed
  | none => .error .malformed

def timestampOf (cs : List Char) : Except Flaw Document := do
  let form ← orFault .noDateForm (timeForm? (dropLineEnd cs))
  if form.date.exists? && form.clock.all Clock.exists? then
    return (form.clock.map (.moment form.date)).getD (.date form.date)
  else throw (.fault .noSuchValue)

def toDocument (tag : Tag) (text : String) : Except Flaw Document :=
  match tag with
  | .null => .ok .null
  | .bool => boolOf text
  | .int => intOf text.toList
  | .float => floatOf text.toList
  | .timestamp => timestampOf text.toList
  | .binary => bytesOf text.toList
  | .str => .ok (.text text)
  | .seq | .map | .set | .pairs | .merge | .default | .other => .error .malformed

end ResourceScript.Yaml.Scalar
