import ResourceScript.Problem

namespace ResourceScript

/-- A failure below the level of scripts and templates. -/
inductive Fault where
  /-- An integer does not fit the bytes it is to be packed into. -/
  | integerTooLarge
  /-- A rectangle does not have four components. -/
  | componentCount
  /-- A text is too long for a length of one byte. -/
  | lengthTooLarge
  /-- Integers are not packed in that many bytes. -/
  | noSuchWidth
  /-- A fixed number of bytes is to be read behind the end of the data. -/
  | shortData (offset width available : Nat)
  /-- A length is to be read behind the end of the data. -/
  | noLength
  | pascalOverrun (offset : Nat)
  | terminatorMissing (offset : Nat)
  | fixedOverrun (offset : Nat)
  | notEncodable (type : ValueType)
  | notDecodable (type : ValueType)
  /-- A value of another shape than its type. -/
  | valueShape
  | entryWithoutType (entry : String)
  | entryBeyondData (entry : String) (offset available : Nat)
  | entryCut (entry : String) (offset width available : Nat)
  | notAnInteger (type : ValueType)
  | noIntegerValue (kind : LexemeKind)
  | streamWithoutEnd
  | unknownEncoding (name : String)
  /-- A list is expected where the template file has a value without parts. -/
  | notIterable
  /-- A number, a date or a character is written in a form that has no value. -/
  | noSuchValue
  /-- A number is beyond the range of characters or floating-point numbers. -/
  | beyondRange
  /-- A number has no digits at all. -/
  | emptyNumber
  /-- A word is no truth value. -/
  | noTruthValue
  /-- A text does not have the form of a date. -/
  | noDateForm
  /-- A document has parts inside parts to a depth that is not read. -/
  | nestedTooDeep
  | undecodable
  | missingFile (path : Text)
  | fileExists
  | fileSystem
  /-- A path that no file can have. -/
  | unusablePath
  /-- A path is not below the directory it is to be shown relative to. -/
  | notBelow
  /-- A detail of an event takes a name that the event itself uses. -/
  | nameTaken
  /-- A way of reporting that the reporter does not have. -/
  | notReported
  /-- The work of a task broke off. -/
  | taskFailed
  deriving DecidableEq, Repr

namespace Fault

def message? : Fault → Option Text
  | pascalOverrun offset => some (text s!"Pascal string overruns data at {offset}")
  | terminatorMissing offset => some (text s!"Unterminated C string at {offset}")
  | fixedOverrun offset => some (text s!"Fixed string overruns data at {offset}")
  | notEncodable type => some (text s!"Cannot encode value of type {type.name}")
  | notDecodable type => some (text s!"Cannot decode value of type {type.name}")
  | entryWithoutType entry => some (text s!"Entry '{entry}' has no known type")
  | entryBeyondData entry offset available =>
    some (text s!"Out of range read for {entry}: {offset}>={available}")
  | entryCut entry offset width available =>
    some (text
      (s!"Unable to decode {entry} at {offset}: unpack_from requires a buffer of at least " ++
      s!"{offset + width} bytes for unpacking {width} bytes at offset {offset} " ++
      s!"(actual buffer size is {available})"))
  | notAnInteger type => some (text s!"{type.kindName} is not an integer type")
  | noIntegerValue kind =>
    some (text s!"{kind.name.map Char.toUpper} token has no integer value")
  | streamWithoutEnd => some (text "token stream must end with an EOF token")
  | missingFile path => some path
  | _ => none

end Fault

inductive Failure where
  | problem (cause : Problem) (position : Option Position)
  | fault (cause : Fault)
  deriving DecidableEq, Repr

namespace Failure

def locate (position : Position) : Failure → Failure
  | problem cause none => problem cause (some position)
  | other => other

end Failure

def Problem.at (cause : Problem) (position : Position) : Failure :=
  .problem cause (some position)

def Problem.anywhere (cause : Problem) : Failure :=
  .problem cause none

end ResourceScript
