import ResourceScript.Decimal.Shortest
import ResourceScript.Document.Date
import ResourceScript.Text.Glyph

namespace ResourceScript

inductive Document where
  | null
  | bool (b : Bool)
  | int (n : Int)
  | float (x : Float)
  | text (s : String)
  | bytes (b : Bytes)
  | date (d : Date)
  | moment (d : Date) (c : Clock)
  | pair (first second : Document)
  | list (items : List Document)
  | set (items : List Document)
  /-- Members in the order they were written. -/
  | map (members : List (Document × Document))
  /-- The part with that number. -/
  | shared (n : Nat)
  deriving Inhabited

namespace Document

abbrev Parts := Array Document

def whole (parts : Parts) (d : Document) : Document :=
  match d with
  | shared n => (parts[n]?).getD null
  | _ => d

def wholeOf? (x : Float) : Option Int :=
  let bits := x.toBits
  let magnitude := bits &&& 0x7FFFFFFFFFFFFFFF
  if magnitude ≥ 0x7FF0000000000000 then none
  else
    let b := Binary.ofBits magnitude
    let (num, den) := b.ratio
    if num % den = 0 then
      some (if bits >>> 63 == 1 then -(num / den : Nat) else (num / den : Nat))
    else none

/-- What decides whether two keys of a map are the same. A number counts by its value, be it an
integer, a truth value or a floating-point number, and a moment by its universal time, if that is
known. -/
inductive Key where
  | null
  | whole (n : Int)
  | other (bits : UInt64)
  | text (s : String)
  | bytes (b : Bytes)
  | date (d : Date)
  | moment (d : Date) (c : Clock)
  | instant (microseconds : Int)
  deriving DecidableEq

/-- The key that a document is. Lists, sets and maps are none. -/
def key? : Document → Option Key
  | null => some .null
  | bool b => some (.whole (if b then 1 else 0))
  | int n => some (.whole n)
  | float x =>
    match wholeOf? x with
    | some n => some (.whole n)
    | none => some (.other (if x.isNaN then 0 else x.toBits))
  | text s => some (.text s)
  | bytes b => some (.bytes b)
  | date d => some (.date d)
  | moment d c => some (((instant? d c).map .instant).getD (.moment d c))
  | pair .. | list _ | set _ | map _ | shared _ => none

/-- Sets a member of a map: in its place if the key is there, else at the end. -/
def put (key value : Document) : List (Document × Document) → List (Document × Document)
  | [] => [(key, value)]
  | (k, v) :: rest => if k.key? = key.key? then (k, value) :: rest else (k, v) :: put key value rest

def member? (members : List (Document × Document)) (name : String) : Option Document :=
  (members.find? fun m => m.1.key? = some (.text name)).map (·.2)

def isNothing : Document → Bool
  | null => true
  | bool b => !b
  | int n => n == 0
  | float x => x == 0.0
  | text s => s.isEmpty
  | bytes b => b.isEmpty
  | date _ | moment _ _ | pair _ _ | shared _ => false
  | list items | set items => items.isEmpty
  | map members => members.isEmpty

end Document

/-- What a configuration file holds: a document and the parts of it that have numbers. -/
structure Configuration where
  root : Document
  parts : Document.Parts := #[]
  deriving Inhabited

end ResourceScript
