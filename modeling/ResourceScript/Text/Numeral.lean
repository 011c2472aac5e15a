import ResourceScript.Decimal.Shortest
import ResourceScript.Text.Class

namespace ResourceScript.Text

/-- Splits off the sign: whether it is a minus, and the rest. -/
def splitSign : List Char → Bool × List Char
  | '-' :: cs => (true, cs)
  | '+' :: cs => (false, cs)
  | cs => (false, cs)

/-- The blanks around a number. The four characters that part files, groups, records and units are
none, although they part words. -/
def isNumberBlank (c : Char) : Bool :=
  isBlank c && !(0x1C ≤ c.toNat && c.toNat ≤ 0x1F)

/-- The ASCII digit of the same value; any other character stands for itself. -/
def asciiDigit (c : Char) : Char :=
  match digitValue? c with
  | some value => Char.ofNat ('0'.toNat + value)
  | none => c

def plainNumber (cs : List Char) : List Char :=
  (((cs.dropWhile isNumberBlank).reverse.dropWhile isNumberBlank).reverse).map asciiDigit

def decimalLimit : Nat := 4300

def decimal? (digits : List Nat) : Option Nat :=
  if digits.length ≤ decimalLimit then some (ofDigits 10 digits) else none

@[irreducible]
def isShown (n : Int) : Bool :=
  n.natAbs < Nat.pow 10 decimalLimit

theorem isShown_iff {n : Int} : isShown n = true ↔ n.natAbs < Nat.pow 10 decimalLimit := by
  unfold isShown
  exact decide_eq_true_iff

theorem isShown_neg (n : Int) : isShown (-n) = isShown n :=
  Bool.eq_iff_iff.mpr (by rw [isShown_iff, isShown_iff, Int.natAbs_neg])

def digitIn? (base : Nat) (c : Char) : Option Nat :=
  (hexValue? c).filter (· < base)

def groupedDigits? (base : Nat) : List Char → Option (List Nat)
  | [] => none
  | [c] => (digitIn? base c).map ([·])
  | c :: '_' :: d :: cs => do
    let value ← digitIn? base c
    let rest ← groupedDigits? base (d :: cs)
    return value :: rest
  | c :: d :: cs => do
    let value ← digitIn? base c
    let rest ← groupedDigits? base (d :: cs)
    return value :: rest

def baseLetters : List (Nat × Char) :=
  [(2, 'b'), (8, 'o'), (16, 'x')]

/-- Digits without the mark that tells their base, which an underscore may part from them. -/
def dropBaseMark (base : Nat) (cs : List Char) : List Char :=
  match cs with
  | '0' :: letter :: digits =>
    if baseLetters.lookup base = some letter.toLower then
      match digits with
      | '_' :: ds => ds
      | ds => ds
    else cs
  | _ => cs

/-- The integer that a text denotes in a base: perhaps a sign, then digits. -/
def intIn? (base : Nat) (cs : List Char) : Option Int := do
  let (negative, cs) := splitSign (plainNumber cs)
  let digits ← groupedDigits? base (dropBaseMark base cs)
  let size ← if base = 10 then decimal? digits else some (ofDigits base digits)
  return if negative then -(size : Int) else size

def numberWords : List (String × Float) :=
  [("inf", Binary.infinity), ("infinity", Binary.infinity), ("nan", Binary.nan)]

def takeDigits (cs : List Char) : List Nat × List Char :=
  let isDigit (c : Char) : Bool := '0' ≤ c && c ≤ '9'
  ((cs.takeWhile isDigit).map fun c => c.toNat - '0'.toNat, cs.dropWhile isDigit)

def exponent? : List Char → Option Int
  | [] => some 0
  | e :: cs =>
    let (negative, cs) := splitSign cs
    match e.toLower, takeDigits cs with
    | 'e', (digit :: digits, []) =>
      let size : Int := ofDigits 10 (digit :: digits)
      some (if negative then -size else size)
    | _, _ => none

/-- The decimal that a text denotes: digits, perhaps with a point before, among or behind them, and
perhaps an exponent. -/
def decimalNumber? (cs : List Char) : Option Decimal := do
  let (whole, behind) := takeDigits cs
  let (fraction, behind) := match behind with
    | '.' :: cs => takeDigits cs
    | _ => ([], behind)
  let exponent ← exponent? behind
  if whole.isEmpty && fraction.isEmpty then none
  else some ⟨ofDigits 10 (whole ++ fraction), exponent - fraction.length⟩

/-- The floating-point number that a text denotes: perhaps a sign, then a decimal or a word. -/
def floatOf? (cs : List Char) : Option Float := do
  let (negative, cs) := splitSign (plainNumber cs)
  let word := String.ofList (cs.map Char.toLower)
  let size ← (numberWords.lookup word).or ((decimalNumber? cs).map Decimal.toFloat)
  return if negative then -size else size

end ResourceScript.Text
