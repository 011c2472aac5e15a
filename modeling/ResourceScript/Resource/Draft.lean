import ResourceScript.Template.Basic
import ResourceScript.Template.Value

namespace ResourceScript

structure Resource where
  /-- The code of its type. -/
  code : String
  id : Int
  name : Text
  data : Bytes
  /-- The entries that fields wrote, in the order of writing. -/
  slots : List String
  deriving DecidableEq, Repr

structure Draft where
  code : String
  id : Int
  name : Text
  layout : List Entry
  /-- The bytes written so far with their entries, in the order of writing. -/
  written : List (String × Bytes) := []
  closed : Bool := false
  deriving DecidableEq, Repr

namespace Draft

def ofTemplate (t : TypeTemplate) (id : Int) (name : Text) : Draft where
  code := t.code
  id
  name
  layout := t.entries

def slots (d : Draft) : List String :=
  d.written.map (·.1)

/-- Writes an entry, which must not have been written before. Tells how many bytes were written. -/
def write (d : Draft) (slot : String) (value : Except Fault Written) :
    Except Failure (Draft × Nat) :=
  if d.closed then .error (Problem.writeAfterAssembly slot d.id).anywhere
  else if slot ∈ d.slots then .error (Problem.duplicateValue slot).anywhere
  else
    match value with
    | .ok w => .ok ({ d with written := d.written ++ [(slot, w.bytes)] }, w.count)
    | .error fault => .error (.fault fault)

/-- The bytes of an entry: what was written for it, or its default. -/
def bytesOf (d : Draft) (e : Entry) : Bytes :=
  (d.written.lookup e.name).getD e.type.default

/-- The entries that were written but are not part of the layout, in order of their names. -/
def unplaced (d : Draft) : List String :=
  (d.slots.filter fun s => !(d.layout.map (·.name)).contains s).mergeSort

def assemble (d : Draft) : Except Failure Resource :=
  if d.closed then .error (Problem.secondAssembly d.id).anywhere
  else if d.unplaced.isEmpty then
    .ok {
      code := d.code
      id := d.id
      name := d.name
      data := d.layout.flatMap d.bytesOf
      slots := d.slots }
  else .error (Problem.valuesOutsideTemplate d.unplaced).anywhere

def close (d : Draft) : Draft :=
  { d with closed := true }

end Draft

end ResourceScript
