import ResourceScript.Text.Class
import ResourceScript.Text.Glyph

namespace ResourceScript

inductive StringUnit where
  | byte (b : UInt8)
  | escaped (c : Char)
  | plain (c : Char)
  deriving DecidableEq, Repr

namespace StringUnit

/-- The character that an escape stands for: those without a meaning of their own for themselves. -/
def escapedChar (c : Char) : Char :=
  match c with
  | 'n' => '\n'
  | 't' => '\t'
  | 'r' => '\r'
  | '0' => Char.ofNat 0
  | c => c

/-- The byte of a two-digit escape: an ASCII character, or a raw byte. -/
def glyphOfByte (b : UInt8) : Glyph :=
  if b < 0x80 then .char (Char.ofNat b.toNat) else .byte b

def glyph : StringUnit → Glyph
  | byte b => glyphOfByte b
  | escaped c => .char (escapedChar c)
  | plain c => .char c

def hexByte? (a b : Char) : Option UInt8 := do
  let high ← Text.hexValue? a
  let low ← Text.hexValue? b
  return UInt8.ofNat (high * 16 + low)

def ofBody : List Char → List StringUnit
  | [] => []
  | '\\' :: 'x' :: a :: b :: cs =>
    match hexByte? a b with
    | some value => byte value :: ofBody cs
    | none => escaped 'x' :: ofBody (a :: b :: cs)
  | '\\' :: c :: cs => if c = '\n' then plain '\\' :: ofBody (c :: cs) else escaped c :: ofBody cs
  | c :: cs => plain c :: ofBody cs
termination_by cs => cs.length

end StringUnit

def unescape (body : List Char) : Text :=
  (StringUnit.ofBody body).map StringUnit.glyph

end ResourceScript
