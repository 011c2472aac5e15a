import ResourceScript.Bytes.BigEndian

namespace ResourceScript

inductive Value where
  | integer (n : Int)
  | rectangle (components : List Int)
  | bytes (b : Bytes)
  deriving DecidableEq, Repr

/-- The bytes a value was written as, and how many of them the writer accounts for. A text that is
longer than its fixed size is written whole and counts as that size. -/
structure Written where
  bytes : Bytes
  count : Nat
  deriving DecidableEq, Repr

namespace Written

def ofBytes (b : Bytes) : Written where
  bytes := b
  count := b.length

def integer (t : IntegerType) (n : Int) : Except Fault Written :=
  (t.pack n).map ofBytes

def packAll (t : IntegerType) : List Int → Except Fault Bytes
  | [] => .ok []
  | n :: ns => do
    let b ← t.pack n
    let rest ← packAll t ns
    return b ++ rest

def rectangle (components : List Int) : Except Fault Written :=
  if components.length = 4 then (packAll .component components).map ofBytes
  else .error .componentCount

def pascal (b : Bytes) : Except Fault Written :=
  if b.length < 256 then .ok (ofBytes (UInt8.ofNat b.length :: b)) else .error .lengthTooLarge

def terminated (b : Bytes) : Written :=
  ofBytes (b ++ [0])

def fixed (b : Bytes) (size : Nat) : Written where
  bytes := b ++ List.replicate (size - b.length) 0
  count := size

def raw (b : Bytes) : Written :=
  ofBytes b

end Written

namespace ValueType

/-- The integers that a type packs as a whole. A rectangle passes for one wide integer. -/
def packedAs? : ValueType → Option IntegerType
  | integer t => some t
  | rectangle => some ⟨.eight, true⟩
  | _ => none

def writeInteger (t : ValueType) (n : Int) : Except Fault Written :=
  match t.packedAs? with
  | some i => Written.integer i n
  | none => .error .noSuchWidth

def write (t : ValueType) (v : Value) : Except Fault Written :=
  match t, v with
  | integer i, .integer n => Written.integer i n
  | rectangle, .rectangle components => Written.rectangle components
  | pascal, .bytes b => Written.pascal b
  | terminated, .bytes b => .ok (Written.terminated b)
  | fixed size, .bytes b => .ok (Written.fixed b size)
  | raw, .bytes b => .ok (Written.raw b)
  | unknown, _ => .error (.notEncodable t)
  | _, _ => .error .valueShape

/-- The bytes of an entry that no field wrote: zeros and empty texts. -/
def default : ValueType → Bytes
  | integer t => List.replicate t.width.bytes 0
  | rectangle => List.replicate 8 0
  | pascal => [0]
  | terminated => [0]
  | fixed size => List.replicate size 0
  | raw => []
  | unknown => []

def slice (data : Bytes) (offset width : Nat) : Except Fault Bytes :=
  if offset + width ≤ data.length then .ok ((data.drop offset).take width)
  else .error (.shortData offset width data.length)

def readInteger (t : ValueType) (data : Bytes) (offset : Nat) : Except Fault Int :=
  match t.packedAs? with
  | some i => (slice data offset i.width.bytes).map i.unpack
  | none => .error .noSuchWidth

/-- Reads a value of a type at an offset; also tells how many bytes it took. -/
def read (t : ValueType) (data : Bytes) (offset : Nat) : Except Fault (Value × Int) :=
  let rest := data.drop offset
  match t with
  | integer i => do
    let b ← slice data offset i.width.bytes
    return (.integer (i.unpack b), i.width.bytes)
  | rectangle => do
    let b ← slice data offset 8
    let component (i : Nat) : Int := IntegerType.component.unpack ((b.drop (2 * i)).take 2)
    return (.rectangle [component 0, component 1, component 2, component 3], 8)
  | pascal =>
    match rest with
    | [] => .error .noLength
    | length :: tail =>
      if tail.length < length.toNat then .error (.pascalOverrun offset)
      else .ok (.bytes (tail.take length.toNat), 1 + length.toNat)
  | terminated =>
    let b := rest.takeWhile (· != 0)
    if b.length < rest.length then .ok (.bytes b, b.length + 1)
    else .error (.terminatorMissing offset)
  | fixed size =>
    let b := rest.take size
    if b.length = size then .ok (.bytes (b.takeWhile (· != 0)), size)
    else .error (.fixedOverrun offset)
  | raw => .ok (.bytes rest, (data.length : Int) - offset)
  | unknown => .error (.notDecodable t)

end ValueType

end ResourceScript
