import ResourceScript.Template.Basic

namespace ResourceScript

inductive Directive where
  /-- The id of another resource. -/
  | reference
  /-- A text, or the contents of a file. -/
  | file
  | picture
  | sprite
  | colorIcon
  /-- Integers whose bits are joined. -/
  | bitmask
  /-- One literal for each slot. -/
  | positional
  deriving DecidableEq, Repr

namespace Directive

def tag : Directive → String
  | reference => "Reference"
  | file => "File"
  | picture => "Picture"
  | sprite => "Sprite"
  | colorIcon => "ColorIcon"
  | bitmask => "Bitmask"
  | positional => ""

def name : Directive → String
  | reference => "reference"
  | file => "file"
  | picture => "picture"
  | sprite => "sprite"
  | colorIcon => "color_icon"
  | bitmask => "bitmask"
  | positional => "none"

def slots (f : FieldTemplate) : Directive → List Slot
  | positional => f.slots
  | _ => [f.first]

def tagged : List Directive :=
  [file, picture, sprite, colorIcon, bitmask]

/-- The directive of a field; for one that is not known, the position is that of its value. -/
def ofField (f : FieldTemplate) (position : Option Position) : Except Failure Directive :=
  match f.tag with
  | none => .ok positional
  | some tag =>
    if tag.isReference then .ok reference
    else
      match tagged.find? (·.tag == tag.name) with
      | some d => .ok d
      | none => .error (.problem (.unknownDirective tag.name f.name) position)

end Directive

end ResourceScript
