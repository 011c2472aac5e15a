import ResourceScript.Text.Glyph

namespace ResourceScript

/-- Where a path starts: at the working directory or at the root. Exactly two slashes name a root
of their own. -/
inductive Path.Anchor where
  | relative
  | root
  | doubleRoot
  deriving DecidableEq, Repr

structure Path where
  anchor : Path.Anchor
  parts : List Text
  deriving DecidableEq, Repr

namespace Path

def slash : Glyph := .char '/'

def point : Text := [.char '.']

def parentPart : Text := [.char '.', .char '.']

def Anchor.render : Anchor → Text
  | relative => []
  | root => [slash]
  | doubleRoot => [slash, slash]

def anchorOf : Text → Anchor
  | .char '/' :: .char '/' :: .char '/' :: _ => .root
  | .char '/' :: .char '/' :: _ => .doubleRoot
  | .char '/' :: _ => .root
  | _ => .relative

def partsOf (t : Text) : List Text :=
  (t.splitOnP (· == slash)).filter fun p => !p.isEmpty && p != point

def ofText (t : Text) : Path where
  anchor := anchorOf t
  parts := partsOf t

def ofString (s : String) : Path :=
  ofText (text s)

def here : Path where
  anchor := .relative
  parts := []

def render (p : Path) : Text :=
  if p.anchor = .relative ∧ p.parts = [] then point
  else p.anchor.render ++ Text.join [slash] p.parts

def join (p q : Path) : Path :=
  if q.anchor = .relative then { p with parts := p.parts ++ q.parts } else q

def parent (p : Path) : Path :=
  { p with parts := p.parts.dropLast }

def name (p : Path) : Text :=
  p.parts.getLast?.getD []

def suffix (p : Path) : Text :=
  let (ending, before) := p.name.reverse.span (· != .char '.')
  match before with
  | _ :: stem => if ending.isEmpty || stem.isEmpty then [] else (.char '.' :: ending.reverse)
  | [] => []

def relativeTo? (p directory : Path) : Option Path :=
  if p.anchor = directory.anchor ∧ directory.parts <+: p.parts then
    some ⟨.relative, p.parts.drop directory.parts.length⟩
  else none

/-- The parts without the ones that lead upwards: each of those takes the part before it along, and
at the root there is none to take. -/
def normalize (parts : List Text) : List Text :=
  parts.foldl (fun above p => if p = parentPart then above.dropLast else above ++ [p]) []

def resolve (p : Path) (working : List Text) : Path where
  anchor := .root
  parts := normalize (if p.anchor = .relative then working ++ p.parts else p.parts)

def hasZero (p : Path) : Bool :=
  p.parts.any (·.contains (.char (Char.ofNat 0)))

end Path

end ResourceScript
