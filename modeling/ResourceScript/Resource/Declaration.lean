import ResourceScript.Resource.Assignment
import ResourceScript.Script.Header
import ResourceScript.Script.Tokenize

namespace ResourceScript

def Registry.instantiate (r : Registry) (id : Option Int) (name : Option Text)
    (position : Option Position) : Except Failure (Draft × Registry) := do
  let t ← r.active
  let (id, r) ← r.claim id position
  return (.ofTemplate t id (name.getD []), r)

namespace Declaration

def start (header : Header) (position : Position) : Compilation Draft := do
  let s ← get
  let (draft, registry) ← Compilation.ofExcept
    (s.registry.instantiate header.id header.name position)
  modify fun s => { s with registry }
  return draft

def assignment (settings : Settings) (d : Draft) : Compilation Draft := do
  let name ← CursorM.peek
  if name.kind ≠ .identifier then throw ((Problem.expectedFieldName name).at name.position)
  let _ ← CursorM.read
  let type ← Compilation.ofExcept (← get).registry.active
  let field ← Compilation.ofExcept (type.fieldNamed name)
  CursorM.ensureKind .equals
  let d ← Assignment.run { settings, type, name, field } d
  CursorM.ensureKind .semicolon
  return d

def body (settings : Settings) (d : Draft) : Compilation Draft := do
  CursorM.ensureKind .leftBrace
  let d ← repeatWhile Session.remaining (·.cursor.expects [.anythingBut .rightBrace])
    (assignment settings) d
  CursorM.ensureKind .rightBrace
  return d

/-- One declaration. Its id is taken even if its body fails. -/
def read (settings : Settings) : Compilation Resource := do
  let first ← CursorM.peek
  let header ← Header.read
  let draft ← start header first.position
  let draft ← body settings draft
  let resource ← Compilation.ofExcept draft.assemble
  Compilation.note (text s!"encoded {resource.code} #{resource.id} '" ++ resource.name ++
    text s!"' ({resource.data.length} bytes)")
  return resource

def readNext (settings : Settings) (resources : List Resource) : Compilation (List Resource) := do
  let s ← get
  if !s.cursor.isAtDeclaration then
    let next := s.cursor.peek
    throw ((Problem.expectedDeclaration next).at next.position)
  let resource ← read settings
  return resources ++ [resource]

def readAll (settings : Settings) : Compilation (List Resource) :=
  repeatWhile Session.remaining (!·.cursor.isFinished) (readNext settings) []

end Declaration

/-- What became of a script: its resources or why there are none, the ids that are taken now, and
what was done on the way. -/
structure Compiled where
  result : Except Failure (List Resource)
  registry : Registry
  journal : List Text

def Cursor.ofSource (source : String) (path : Option String) : Except Failure Cursor := do
  let tokens ← tokenize source path
  (Cursor.ofTokens tokens).mapError .fault

def compile (settings : Settings) (registry : Registry) (source : String)
    (path : Option String := none) : Compiled :=
  match Cursor.ofSource source path with
  | .error e => { result := .error e, registry, journal := [] }
  | .ok cursor =>
    match Declaration.readAll settings { cursor, registry } with
    | .ok resources s => { result := .ok resources, registry := s.registry, journal := s.journal }
    | .error e s => { result := .error e, registry := s.registry, journal := s.journal }

end ResourceScript
