import ResourceScript.Text.Glyph
import ResourceScript.Text.Numeral

namespace ResourceScript

inductive Width where
  | one
  | two
  | four
  | eight
  deriving DecidableEq, Repr

namespace Width

def bytes : Width → Nat
  | one => 1
  | two => 2
  | four => 4
  | eight => 8

def ofBytes? : Int → Option Width
  | 1 => some one
  | 2 => some two
  | 4 => some four
  | 8 => some eight
  | _ => none

def bits (w : Width) : Nat :=
  8 * w.bytes

def count (w : Width) : Nat :=
  Nat.pow 2 w.bits

end Width

structure IntegerType where
  width : Width
  signed : Bool
  deriving DecidableEq, Repr

namespace IntegerType

def lo (t : IntegerType) : Int :=
  if t.signed then -(t.width.count / 2 : Nat) else 0

def hi (t : IntegerType) : Int :=
  (if t.signed then t.width.count / 2 else t.width.count : Nat) - 1

def Holds (t : IntegerType) (n : Int) : Prop :=
  t.lo ≤ n ∧ n ≤ t.hi

instance (t : IntegerType) (n : Int) : Decidable (t.Holds n) :=
  inferInstanceAs (Decidable (_ ∧ _))

def component : IntegerType where
  width := .two
  signed := true

def name (t : IntegerType) : String :=
  (if t.signed then "D" else "H") ++
    match t.width with
    | .one => "BYT"
    | .two => "WRD"
    | .four => "LNG"
    | .eight => "QAD"

end IntegerType

inductive ValueType where
  | integer (type : IntegerType)
  /-- Text led by its length in one byte. -/
  | pascal
  /-- Text ended by a zero byte. -/
  | terminated
  /-- Text filled up with zero bytes to a fixed size. -/
  | fixed (size : Nat)
  /-- Four signed components of two bytes. -/
  | rectangle
  /-- Bytes up to the end of the resource. -/
  | raw
  /-- A type whose name is not known. -/
  | unknown
  deriving DecidableEq, Repr

namespace ValueType

def named : List (String × ValueType) :=
  [("DBYT", .integer ⟨.one, true⟩), ("DWRD", .integer ⟨.two, true⟩),
    ("DLNG", .integer ⟨.four, true⟩), ("DQAD", .integer ⟨.eight, true⟩),
    ("HBYT", .integer ⟨.one, false⟩), ("HWRD", .integer ⟨.two, false⟩),
    ("HLNG", .integer ⟨.four, false⟩), ("HQAD", .integer ⟨.eight, false⟩),
    ("PSTR", .pascal), ("CSTR", .terminated), ("RECT", .rectangle), ("HEXD", .raw),
    ("NONE", .unknown)]

def kindName : ValueType → String
  | integer t => t.name
  | pascal => "PSTR"
  | terminated => "CSTR"
  | fixed _ => "Cxxx"
  | rectangle => "RECT"
  | raw => "HEXD"
  | unknown => "NONE"

def hexSize (n : Nat) : List Char :=
  let digits := (Nat.toDigits 16 n).map Char.toUpper
  List.replicate (3 - digits.length) '0' ++ digits

/-- The name of the type: a fixed text shows its size. -/
def name : ValueType → String
  | fixed size => String.ofList ('C' :: hexSize size)
  | t => t.kindName

def hexSize? : List Char → Option Nat
  | [c, x, y, z] =>
    if c = 'C' ∨ c = 'c' then
      ([x, y, z].mapM Text.hexValue?).map (Text.ofDigits 16)
    else none
  | _ => none

def sizeDigits? (cs : List Char) : Option (List Nat) :=
  if (cs.take 5).map Char.toLower = "cxxx(".toList then
    match (cs.drop 5).reverse with
    | ')' :: digit :: digits => (digit :: digits).reverse.mapM Text.digitValue?
    | _ => none
  else none

/-- The type with a name, whatever its case and the blanks around it, unless the name gives a size
of too many digits. -/
def ofName? (s : String) : Option ValueType :=
  let cs := Text.strip s.toList
  match hexSize? cs with
  | some size => some (.fixed size)
  | none =>
    match sizeDigits? cs with
    | some digits => (Text.decimal? digits).map .fixed
    | none => some ((named.lookup (String.ofList (cs.flatMap Text.upperAscii))).getD .unknown)

def size? : ValueType → Option Nat
  | integer t => some t.width.bytes
  | fixed size => some size
  | rectangle => some 8
  | _ => none

def integers? : ValueType → Option IntegerType
  | integer t => some t
  | rectangle => some .component
  | _ => none

end ValueType

end ResourceScript
