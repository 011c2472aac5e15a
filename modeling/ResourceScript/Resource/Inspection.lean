import ResourceScript.Bytes.Sha256
import ResourceScript.Json.Basic
import ResourceScript.Template.Basic
import ResourceScript.Template.Value
import ResourceScript.Text.Hex

namespace ResourceScript

/-- The value of an entry, and the offset it was read at. -/
structure DecodedEntry where
  name : String
  offset : Nat
  value : Value
  deriving DecidableEq, Repr

/-- The entries of a resource, and the number of bytes they take. -/
structure Decoded where
  entries : List DecodedEntry
  consumed : Nat
  deriving DecidableEq, Repr

namespace Entry

def blame (e : Entry) : Fault → Fault
  | .shortData offset width available => .entryCut e.name offset width available
  | other => other

/-- Reads the value of an entry; also tells how many bytes it takes. Only raw bytes may start at the
end of the data. -/
def decode (e : Entry) (data : Bytes) (offset : Nat) : Except Fault (Value × Nat) :=
  if e.type = .unknown then .error (.entryWithoutType e.name)
  else if data.length < offset ∨ (offset = data.length ∧ e.type ≠ .raw) then
    .error (.entryBeyondData e.name offset data.length)
  else
    match e.type.read data offset with
    | .ok (v, used) => .ok (v, used.toNat)
    | .error f => .error (e.blame f)

def decodeAll (data : Bytes) : List Entry → Nat → Except Fault Decoded
  | [], offset => .ok { entries := [], consumed := offset }
  | e :: es, offset => do
    let (value, used) ← e.decode data offset
    let rest ← decodeAll data es (offset + used)
    return { rest with entries := { name := e.name, offset, value } :: rest.entries }

end Entry

def TypeTemplate.decode (t : TypeTemplate) (data : Bytes) : Except Fault Decoded :=
  Entry.decodeAll data t.entries 0

structure Inspection where
  type : String
  code : String
  data : Bytes
  outcome : Except Fault Decoded

def TypeTemplate.inspect (t : TypeTemplate) (data : Bytes) : Inspection where
  type := t.name
  code := t.code
  data
  outcome := t.decode data

def Value.toJson : Value → Json
  | integer n => .int n
  | rectangle components => .arr (components.map .int)
  | bytes b => .ofString (Text.hexOfBytes b)

namespace DecodedEntry

def toJson (e : DecodedEntry) : Json :=
  .obj [("name", .ofString e.name), ("offset", .int e.offset), ("value", e.value.toJson)]

end DecodedEntry

namespace Inspection

def size (i : Inspection) : Nat :=
  i.data.length

def entries (i : Inspection) : List DecodedEntry :=
  match i.outcome with
  | .ok d => d.entries
  | .error _ => []

/-- What is odd: values that cannot be read, or bytes behind the last one. -/
def issues (i : Inspection) : List Text :=
  match i.outcome with
  | .error fault => [fault.message?.getD []]
  | .ok d =>
    if d.consumed = i.size then []
    else [text s!"Trailing data: decoded {d.consumed} of {i.size} bytes"]

def outcomeMembers (i : Inspection) : List (String × Json) :=
  match i.outcome with
  | .error fault => [("error", .str (fault.message?.getD [])), ("entries", .arr [])]
  | .ok d => [("entries", .arr (d.entries.map DecodedEntry.toJson)), ("consumed", .int d.consumed)]

def members (i : Inspection) : List (String × Json) :=
  [("type", .ofString i.type), ("code", .ofString i.code), ("size", .int i.size),
    ("sha256", .ofString (Sha256.digest i.data))] ++ i.outcomeMembers

end Inspection

end ResourceScript
