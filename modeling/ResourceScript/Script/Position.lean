import ResourceScript.Text.Glyph

namespace ResourceScript

/-- A place in a script: lines and columns count from one, offsets count characters from zero. -/
structure Position where
  path : Option String
  line : Nat
  column : Nat
  offset : Nat
  deriving DecidableEq, Repr

namespace Position

def start (path : Option String) : Position where
  path
  line := 1
  column := 1
  offset := 0

def next (p : Position) (c : Char) : Position :=
  if c = '\n' then { p with line := p.line + 1, column := 1, offset := p.offset + 1 }
  else { p with column := p.column + 1, offset := p.offset + 1 }

def after (p : Position) (cs : List Char) : Position :=
  cs.foldl next p

theorem after_nil (p : Position) : p.after [] = p := rfl

theorem after_cons (p : Position) (c : Char) (cs : List Char) :
    p.after (c :: cs) = (p.next c).after cs := rfl

theorem after_append (p : Position) (cs ds : List Char) :
    p.after (cs ++ ds) = (p.after cs).after ds :=
  List.foldl_append

/-- The position as it leads a message. A script without a name is the input. -/
def render (p : Position) : Text :=
  let name := match p.path with
    | none => "<input>"
    | some path => if path.isEmpty then "<input>" else path
  text name ++ text ":" ++ Text.ofNat p.line ++ text ":" ++ Text.ofNat p.column

end Position

end ResourceScript
