namespace ResourceScript

abbrev Bytes := List UInt8

/-- A unit of text: a character, or a byte that stands for itself in every encoding. -/
inductive Glyph where
  | char (c : Char)
  | byte (b : UInt8)
  deriving DecidableEq, Repr, Inhabited

abbrev Text := List Glyph

namespace Text

def ofChars (cs : List Char) : Text :=
  cs.map .char

def ofString (s : String) : Text :=
  ofChars s.toList

instance : Coe String Text := ⟨ofString⟩

def toChars (t : Text) : List Char :=
  t.map fun
    | .char c => c
    | .byte _ => '\uFFFD'

def toString (t : Text) : String :=
  String.ofList t.toChars

theorem toChars_ofChars (cs : List Char) : toChars (ofChars cs) = cs := by
  induction cs with
  | nil => rfl
  | cons c cs ih => simpa [ofChars, toChars] using ih

theorem toString_ofString (s : String) : toString (ofString s) = s := by
  simp [toString, ofString, toChars_ofChars]

def utf8 (t : Text) : Bytes :=
  t.flatMap fun
    | .char c => String.utf8EncodeChar c
    | .byte b => [b]

def ofNat (n : Nat) : Text :=
  ofString (ToString.toString n)

def join (between : Text) (parts : List Text) : Text :=
  (parts.intersperse between).flatten

def spaces (n : Nat) : Text :=
  List.replicate n (.char ' ')

end Text

abbrev text (s : String) : Text := Text.ofString s

end ResourceScript
