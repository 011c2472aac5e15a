import ResourceScript.Document.Shown
import ResourceScript.Template.Basic

namespace ResourceScript.TypeTemplate

open Document (Parts)

abbrev Members := List (Document × Document)

def flawed (f : TemplateFlaw) : Except Failure α :=
  .error (Problem.template f).anywhere

def membersOr (parts : Parts) (flaw : TemplateFlaw) (d : Document) : Except Failure Members :=
  match d.whole parts with
  | .map members => .ok members
  | _ => flawed flaw

def nameOrMembers (parts : Parts) (flaw : TemplateFlaw) : Document → Except Failure Members
  | .text s => .ok [(.text "name", .text s)]
  | d => membersOr parts flaw d

def required (members : Members) (key place : String) : Except Failure Document :=
  match Document.member? members key with
  | none | some .null => flawed (.missing place key)
  | some (.text s) => if s.isEmpty then flawed (.missing place key) else .ok (.text s)
  | some d => .ok d

def nameOf (parts : Parts) (d : Document) : Except Failure String :=
  (d.shown parts).mapError .fault

/-- The elements of a document: the items of a list or set, the characters of a text, the keys of a
map, the values of bytes. -/
def elements (parts : Parts) (d : Document) : Except Failure (List Document) :=
  match d.whole parts with
  | .list items | .set items => .ok items
  | .text s => .ok (s.toList.map fun c => .text (String.singleton c))
  | .bytes b => .ok (b.map fun byte => .int byte.toNat)
  | .map members => .ok (members.map (·.1))
  | _ => .error (.fault .notIterable)

def elementsOf (parts : Parts) (members : Members) (key : String) :
    Except Failure (List Document) :=
  match Document.member? members key with
  | none => .ok []
  | some d => if (d.whole parts).isNothing then .ok [] else elements parts d

def symbolValue (parts : Parts) (place : String) (name value : Document) :
    Except Failure SymbolValue :=
  match value with
  | .int n => .ok (.integer n)
  | .text s => .ok (.text s)
  | _ => do flawed (.symbolValue place (← nameOf parts name))

def symbolsOfMembers (parts : Parts) (place : String) :
    Option Document → Except Failure (List (String × SymbolValue))
  | none | some .null => .ok []
  | some d => do
    let members ← membersOr parts (.symbolsNotMapping place) d
    members.foldlM (fun symbols m => do
      let value ← symbolValue parts place m.1 m.2
      return setMember (← nameOf parts m.1) value symbols) []

def valueType (name : String) : Except Failure ValueType :=
  match ValueType.ofName? name with
  | some type => .ok type
  | none => .error (.fault .noSuchValue)

def entryOf (parts : Parts) (place : String) (entries : List Entry) (item : Document × Nat) :
    Except Failure (List Entry) := do
  let members ← membersOr parts (.entryNotMapping place item.2) item.1
  let entryPlace := s!"{place}.template[{item.2}]"
  let name ← nameOf parts (← required members "name" entryPlace)
  if entries.any (·.name == name) then flawed (.duplicateEntry place name)
  else
    let type ← valueType (← nameOf parts (← required members "type" entryPlace))
    return entries ++ [{ name, type := type }]

def slotOf (parts : Parts) (entries : List Entry) (place : String) (item : Document) :
    Except Failure Slot := do
  let members ← nameOrMembers parts (.valueShape place) item
  let name ← nameOf parts (← required members "name" place)
  match entries.find? (·.name == name) with
  | none => flawed (.unknownEntry place name)
  | some entry =>
    let symbols ← symbolsOfMembers parts s!"{place}.{name}" (Document.member? members "symbols")
    return { name, type := entry.type, symbols }

/-- What a field says on how it is written. A reference goes before a type. -/
def tagOf (parts : Parts) (members : Members) : Except Failure (Option FieldTag) :=
  let given (key : String) : Option Document :=
    (Document.member? members key).filter fun d => !(d.whole parts).isNothing
  match given "reference", given "type" with
  | some d, _ => (nameOf parts d).map fun name => some { name, isReference := true }
  | none, some d => (nameOf parts d).map fun name => some { name := name }
  | none, none => .ok none

def fieldOf (parts : Parts) (place : String) (entries : List Entry) (fields : List FieldTemplate)
    (item : Document × Nat) : Except Failure (List FieldTemplate) := do
  let members ← nameOrMembers parts (.fieldNotMapping place item.2) item.1
  let name ← nameOf parts (← required members "name" s!"{place}.fields[{item.2}]")
  if fields.any (·.name == name) then flawed (.duplicateField place name)
  else
    let values ← elementsOf parts members "values"
    let values := if values.isEmpty then [.text name] else values
    let slots ← values.mapM (slotOf parts entries s!"{place}.{name}")
    let field ← FieldTemplate.ofSlots name slots (← tagOf parts members)
    return fields ++ [field]

def ofMembers (parts : Parts) (members : Members) (index : Nat) : Except Failure TypeTemplate := do
  let name ← nameOf parts (← required members "name" s!"types[{index}]")
  let place := s!"type '{name}'"
  let code ← nameOf parts ((Document.member? members "code").getD (.text name))
  let entries ← (← elementsOf parts members "template").zipIdx.foldlM (entryOf parts place) []
  let fields ← (← elementsOf parts members "fields").zipIdx.foldlM (fieldOf parts place entries) []
  return { name, code, entries, fields }

def allOfConfiguration (c : Configuration) : Except Failure (List TypeTemplate) := do
  let members ← membersOr c.parts .rootNotMapping c.root
  match (Document.member? members "types").map (Document.whole c.parts) with
  | some (.list items) =>
    items.zipIdx.mapM fun (item, i) => do
      ofMembers c.parts (← membersOr c.parts (.typeNotMapping i) item) i
  | _ => flawed .typesNotList

end ResourceScript.TypeTemplate
