import ResourceScript.Files.Import
import ResourceScript.Script.Cursor
import ResourceScript.Script.Repetition
import ResourceScript.Template.Registry
import ResourceScript.Text.Encoding

namespace ResourceScript

/-- What a script is compiled with besides its types. -/
structure Settings where
  /-- The name of the encoding of strings. -/
  encoding : String
  /-- The directory that imported files lie below. -/
  root : Path
  /-- The largest file that may be imported, in bytes. -/
  limit : Int
  files : FileTree
  /-- The encoders that are known besides those of the usual encodings. -/
  encoders : String → Option Encoder := Encoder.other?

structure Session where
  cursor : Cursor
  registry : Registry
  /-- What was done so far, the latest last. -/
  journal : List Text := []

def Session.remaining (s : Session) : Nat :=
  s.cursor.rest.length

abbrev Compilation := EStateM Failure Session

namespace Compilation

def onCursor (m : CursorM α) : Compilation α := fun s =>
  match m s.cursor with
  | .ok a c => .ok a { s with cursor := c }
  | .error e c => .error e { s with cursor := c }

instance : MonadLift CursorM Compilation := ⟨onCursor⟩

def ofExcept (e : Except Failure α) : Compilation α := fun s =>
  match e with
  | .ok a => .ok a s
  | .error f => .error f s

def note (line : Text) : Compilation Unit :=
  modify fun s => { s with journal := s.journal ++ [line] }

def locating (position : Position) (m : Compilation α) : Compilation α := fun s =>
  match m s with
  | .ok a s' => .ok a s'
  | .error e s' => .error (e.locate position) s'

end Compilation

end ResourceScript
