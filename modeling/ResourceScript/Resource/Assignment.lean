import ResourceScript.Resource.Compilation
import ResourceScript.Resource.Directive
import ResourceScript.Resource.Draft
import ResourceScript.Resource.Literal

namespace ResourceScript

def ValueType.textLimit? : ValueType → Option Nat
  | .pascal => some 255
  | .fixed size => some size
  | _ => none

def ValueType.holdsBytes : ValueType → Bool
  | .pascal | .terminated | .fixed _ | .raw => true
  | _ => false

def ValueType.holdsReference : ValueType → Bool
  | .integer t => t.signed && (t.width == .two || t.width == .eight)
  | _ => false

def ValueType.unsigned? : ValueType → Option IntegerType
  | .integer t => if t.signed then none else some t
  | _ => none

def maskBits (term : Int) : Nat :=
  (term % Width.eight.count).toNat

def Draft.put (d : Draft) (slot : Slot) (type : ValueType) (v : Value) : Except Failure Draft :=
  (d.write slot.name (type.write v)).map (·.1)

structure Assignment where
  settings : Settings
  /-- The type of the resource. -/
  type : TypeTemplate
  /-- The token that names the field. -/
  name : Token
  field : FieldTemplate

namespace Assignment

def scope (a : Assignment) : FieldScope where
  field := a.name.text
  encoding := a.settings.encoding
  encoders := a.settings.encoders

def typeOf (a : Assignment) (slot : Slot) : ValueType :=
  a.type.typeOf slot.name

def fit (a : Assignment) (type : ValueType) (b : Bytes) : Except Failure Bytes :=
  match type.textLimit? with
  | none => .ok b
  | some limit =>
    if limit < b.length then .error (Problem.stringTooLarge a.scope.field b.length limit).anywhere
    else .ok b

def literal (a : Assignment) (slot : Slot) (type : ValueType) : CursorM Value := do
  match type with
  | .integer _ =>
    let n ← a.scope.integer slot type
    return .integer n
  | .pascal | .terminated | .fixed _ =>
    let b ← a.scope.string slot
    let b ← CursorM.ofExcept (a.fit type b)
    return .bytes b
  | .rectangle =>
    let components ← a.scope.rectangle
    return .rectangle components
  | .raw =>
    let next ← CursorM.peek
    CursorM.fail ((Problem.unsupportedRaw a.scope.field).at next.position)
  | .unknown =>
    let next ← CursorM.peek
    CursorM.fail ((Problem.unknownValueType a.scope.field slot.name).at next.position)

def reference (a : Assignment) (slot : Slot) : CursorM Value := do
  let type := a.typeOf slot
  if type.holdsReference then
    let id ← a.scope.resourceId type
    return .integer id
  else CursorM.fail (Problem.referenceBacking a.scope.field type).anywhere

def importFile (a : Assignment) (token : Token) (name : Text) : Compilation Bytes := do
  let (path, data) ← Compilation.locating token.position <| Compilation.ofExcept do
    let path ← sourcePath a.settings.files.working a.settings.root name
    let data ← a.settings.files.readWithin a.settings.limit path
    return (path, data)
  Compilation.note (text "imported " ++ path.render ++ text s!" ({data.length} bytes)")
  return data

/-- Bytes as the value of a slot, provided that its type holds bytes and has room for these. -/
def hold (a : Assignment) (slot : Slot) (data : Bytes) : Except Failure Value :=
  let type := a.typeOf slot
  if type.holdsBytes then (a.fit type data).map .bytes
  else .error (Problem.fileBacking a.scope.field type).anywhere

def file (a : Assignment) (slot : Slot) : Compilation Value := do
  let imported ← CursorM.expects [.word "import"]
  if imported then
    let _ ← CursorM.read
  let (token, value) ← a.scope.stringToken
  let data ←
    if imported then a.importFile token value
    else Compilation.ofExcept (a.scope.encodeText value token)
  Compilation.ofExcept (a.hold slot data)

/-- An image in a file. There is no way to compile one yet. -/
def image (a : Assignment) (label : String) : CursorM Value := do
  let (token, path) ← a.scope.stringToken
  CursorM.fail ((Problem.unsupportedImage label a.scope.field path).at token.position)

def joinTerm (slot : Slot) (mask : Nat) : CursorM Nat := do
  let _ ← CursorM.read
  let term ← FieldScope.maskTerm slot
  return mask ||| maskBits term

/-- Terms with bars between them, up to the semicolon behind the value; their bits are joined. -/
def maskTerms (a : Assignment) (slot : Slot) : CursorM Nat := do
  if ← CursorM.isAt .semicolon then return 0
  let first ← FieldScope.maskTerm slot
  let mask ← repeatWhile (fun c => c.rest.length) (·.expects [.ofKind .pipe]) (joinTerm slot)
    (maskBits first)
  if ← CursorM.isAt .semicolon then return mask
  let next ← CursorM.peek
  CursorM.fail ((Problem.malformedMask a.scope.field next).at next.position)

def bitmask (a : Assignment) (slot : Slot) : CursorM Value := do
  if !a.field.others.isEmpty then CursorM.fail (Problem.maskArity a.scope.field).anywhere
  let type := a.typeOf slot
  match type.unsigned? with
  | none => CursorM.fail (Problem.maskBacking a.scope.field type).anywhere
  | some t =>
    let mask ← a.maskTerms slot
    return .integer (mask % t.width.count : Nat)

def value (a : Assignment) (slot : Slot) : Directive → Compilation Value
  | .reference => a.reference slot
  | .file => a.file slot
  | .picture => a.image "Picture"
  | .sprite => a.image "Sprite"
  | .colorIcon => a.image "ColorIcon"
  | .bitmask => a.bitmask slot
  | .positional => a.literal slot (a.typeOf slot)

def store (a : Assignment) (directive : Directive) (d : Draft) (slot : Slot) :
    Compilation Draft := do
  let v ← a.value slot directive
  Compilation.ofExcept (d.put slot (a.typeOf slot) v)

def follow (a : Assignment) (d : Draft) (directive : Directive) : Compilation Draft :=
  (directive.slots a.field).foldlM (a.store directive) d

/-- Reads the value of the field. What has no place of its own to blame is blamed on its name. -/
def run (a : Assignment) (d : Draft) : Compilation Draft := do
  let next ← CursorM.peek
  let directive ← Compilation.ofExcept (Directive.ofField a.field (some next.position))
  Compilation.note (text s!"field {a.name.text}: directive={directive.name}")
  Compilation.locating a.name.position (a.follow d directive)

end Assignment

end ResourceScript
