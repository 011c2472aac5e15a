import ResourceScript.Script.Cursor
import ResourceScript.Template.Basic
import ResourceScript.Text.Encoding

namespace ResourceScript

/-- The field whose value is read, and the name of the encoding of its strings. -/
structure FieldScope where
  field : String
  encoding : String
  /-- The encoders that are known besides those of the usual encodings. -/
  encoders : String → Option Encoder := Encoder.other?

namespace FieldScope

def checkRange (s : FieldScope) (n : Int) (type : ValueType) (token : Token) : Except Failure Int :=
  match type.integers? with
  | none => .error (.fault (.notAnInteger type))
  | some t =>
    if t.Holds n then .ok n
    else if !Text.isShown n then .error (.fault .noSuchValue)
    else .error ((Problem.outOfRange n type t.lo t.hi s.field).at token.position)

def encodeText (s : FieldScope) (t : Text) (token : Token) : Except Failure Bytes :=
  match Encoder.ofName? s.encoders s.encoding with
  | none => .error (.fault (.unknownEncoding s.encoding))
  | some encoder =>
    match encoder t with
    | .ok b => .ok b
    | .error (some reason) =>
      .error ((Problem.unencodable s.field s.encoding reason).at token.position)
    | .error none => .error (.fault .noSuchValue)

def missing (s : FieldScope) (what : LiteralKind) (found : Token) : Failure :=
  (Problem.expectedLiteral what s.field found).at found.position

def integer (s : FieldScope) (slot : Slot) (type : ValueType) : CursorM Int := do
  let token ← CursorM.peek
  match token.lexeme with
  | .integer n =>
    let _ ← CursorM.read
    CursorM.ofExcept (s.checkRange n type token)
  | .identifier =>
    let _ ← CursorM.read
    match ← CursorM.ofExcept (slot.valueOf token) with
    | .integer n => CursorM.ofExcept (s.checkRange n type token)
    | .text _ =>
      CursorM.fail ((Problem.symbolNotInteger token.text s.field).at token.position)
  | _ => CursorM.fail (s.missing .integer token)

def resourceId (s : FieldScope) (type : ValueType) : CursorM Int := do
  let token ← CursorM.peek
  match token.lexeme with
  | .resourceId n =>
    let _ ← CursorM.read
    CursorM.ofExcept (s.checkRange n type token)
  | _ => CursorM.fail ((Problem.expectedResourceId s.field token).at token.position)

def integers (s : FieldScope) (type : ValueType) : Nat → CursorM (List Int)
  | 0 => pure []
  | count + 1 => do
    let token ← CursorM.read
    let n ← CursorM.ofExcept <| match token.lexeme with
      | .integer n => s.checkRange n type token
      | _ => .error (.fault (.noIntegerValue token.kind))
    let rest ← s.integers type count
    return n :: rest

def rectangle (s : FieldScope) : CursorM (List Int) := do
  if ← CursorM.expects (List.replicate 4 (.ofKind .integer)) then s.integers .rectangle 4
  else
    let token ← CursorM.peek
    CursorM.fail (s.missing .rectangle token)

def stringToken (s : FieldScope) : CursorM (Token × Text) := do
  let token ← CursorM.peek
  match token.lexeme with
  | .string value =>
    let _ ← CursorM.read
    return (token, value)
  | _ => CursorM.fail (s.missing .string token)

def string (s : FieldScope) (slot : Slot) : CursorM Bytes := do
  let token ← CursorM.peek
  match token.lexeme with
  | .string value =>
    let _ ← CursorM.read
    CursorM.ofExcept (s.encodeText value token)
  | .identifier =>
    let _ ← CursorM.read
    match ← CursorM.ofExcept (slot.valueOf token) with
    | .text value => CursorM.ofExcept (s.encodeText (Text.ofString value) token)
    | .integer _ =>
      CursorM.fail ((Problem.symbolNotString token.text s.field).at token.position)
  | _ => CursorM.fail (s.missing .string token)

/-- A term of a bitmask: an integer of any size, or the name of an integer constant. -/
def maskTerm (slot : Slot) : CursorM Int := do
  let token ← CursorM.peek
  match token.lexeme with
  | .integer n =>
    let _ ← CursorM.read
    return n
  | .identifier =>
    let _ ← CursorM.read
    match ← CursorM.ofExcept (slot.valueOf token) with
    | .integer n => return n
    | .text _ => CursorM.fail ((Problem.maskSymbolNotInteger token.text).at token.position)
  | _ => CursorM.fail ((Problem.unexpectedMaskTerm token).at token.position)

end FieldScope

end ResourceScript
