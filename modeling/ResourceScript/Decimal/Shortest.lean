namespace ResourceScript

/-- A positive finite number as `mantissa · 2 ^ exponent`. -/
structure Binary where
  mantissa : Nat
  exponent : Int
  deriving DecidableEq, Repr

/-- A positive number as `digits · 10 ^ exponent`. -/
structure Decimal where
  digits : Nat
  exponent : Int
  deriving DecidableEq, Repr

namespace Binary

def minExponent : Int := -1074

def infinity : Float := Float.ofBits 0x7FF0000000000000

def nan : Float := Float.ofBits 0x7FF8000000000000

def leadingBit : Nat := Nat.pow 2 52

def ofBits (bits : UInt64) : Binary :=
  let fraction := (bits &&& 0xFFFFFFFFFFFFF).toNat
  let biased := ((bits >>> 52) &&& 0x7FF).toNat
  if biased = 0 then ⟨fraction, minExponent⟩
  else ⟨fraction + leadingBit, biased - 1075⟩

def hasNarrowGap (b : Binary) : Bool :=
  b.mantissa == leadingBit && b.exponent != minExponent

def ratio (b : Binary) : Nat × Nat :=
  let scale := Nat.pow 2 b.exponent.natAbs
  if b.exponent < 0 then (b.mantissa, scale) else (b.mantissa * scale, 1)

def magnitude (b : Binary) : Int :=
  let (num, den) := b.ratio
  if den ≤ num then ((Nat.toDigits 10 (num / den)).length : Int)
  else
    let n := (Nat.toDigits 10 (den / num)).length
    if num * Nat.pow 10 (n - 1) = den then 2 - (n : Int) else 1 - (n : Int)

/-- The point of the grid of multiples of `10 ^ exponent` that is nearest to the number, provided it
lies among the reals that round to the number. -/
def nearestOnGrid? (b : Binary) (exponent : Int) : Option Decimal :=
  -- `4 · mantissa` counts quarters of the last place, so that both interval ends are whole.
  let scale := b.exponent - 2
  let binary := Nat.pow 2 scale.natAbs
  let decimal := Nat.pow 10 exponent.natAbs
  let up := (if scale < 0 then 1 else binary) * (if exponent < 0 then decimal else 1)
  let down := (if scale < 0 then binary else 1) * (if exponent < 0 then 1 else decimal)
  let value := 4 * b.mantissa * up
  let low := (4 * b.mantissa - (if b.hasNarrowGap then 1 else 2)) * up
  let high := (4 * b.mantissa + 2) * up
  let inside (d : Nat) : Bool :=
    if b.mantissa % 2 = 0 then low ≤ d * down && d * down ≤ high
    else low < d * down && d * down < high
  let below := value / down
  let distBelow := value - below * down
  let distAbove := (below + 1) * down - value
  let belowFirst := distBelow < distAbove || (distBelow == distAbove && below % 2 == 0)
  let order := if belowFirst then [below, below + 1] else [below + 1, below]
  (order.find? fun d => 0 < d && inside d).map (⟨·, exponent⟩)

def shortest (b : Binary) : Decimal :=
  let top := b.magnitude
  ((List.range 17).findSome? fun (n : Nat) => b.nearestOnGrid? (top - (n + 1))).getD ⟨b.mantissa, 0⟩

end Binary

namespace Decimal

def significant (d : Decimal) : List Char × Int :=
  let all := Nat.toDigits 10 d.digits
  ((all.reverse.dropWhile (· == '0')).reverse, d.exponent + all.length)

/-- Positional from `0.0001` up to sixteen digits before the point, always with a fraction;
otherwise one digit before the point and an exponent of at least two digits with its sign. -/
def render (d : Decimal) : List Char :=
  let (digits, point) := d.significant
  if -4 < point && point ≤ 16 then
    if point ≤ 0 then '0' :: '.' :: List.replicate point.natAbs '0' ++ digits
    else if digits.length ≤ point.natAbs then
      digits ++ List.replicate (point.natAbs - digits.length) '0' ++ ['.', '0']
    else digits.take point.natAbs ++ '.' :: digits.drop point.natAbs
  else
    let power := point - 1
    let shown := Nat.toDigits 10 power.natAbs
    let fraction := if digits.length ≤ 1 then [] else '.' :: digits.drop 1
    digits.take 1 ++ fraction ++ 'e' :: (if power < 0 then '-' else '+') ::
      (if shown.length < 2 then '0' :: shown else shown)

/-- The double-precision number nearest to a decimal. Beyond the range of such numbers the exponent
does not matter, so it is cut there. -/
def toFloat (d : Decimal) : Float :=
  let size := (Nat.toDigits 10 d.digits).length
  if d.digits = 0 then 0.0
  else if d.exponent + size > 400 then Binary.infinity
  else if d.exponent + size < -400 then 0.0
  else Float.ofScientific d.digits (d.exponent < 0) d.exponent.natAbs

end Decimal

/-- What is written for infinity and for the absence of a number. -/
structure FloatWords where
  infinity : String
  nan : String

def renderFloat (words : FloatWords) (x : Float) : List Char :=
  let bits := x.toBits
  let sign := if bits >>> 63 == 1 then ['-'] else []
  let magnitude := bits &&& 0x7FFFFFFFFFFFFFFF
  if magnitude > 0x7FF0000000000000 then words.nan.toList
  else if magnitude == 0x7FF0000000000000 then sign ++ words.infinity.toList
  else if magnitude == 0 then sign ++ ['0', '.', '0']
  else sign ++ (Binary.ofBits magnitude).shortest.render

end ResourceScript
