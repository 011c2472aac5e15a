import ResourceScript.Decimal.Shortest
import ResourceScript.Json.Basic
import ResourceScript.Text.Hex

namespace ResourceScript.Json

def escapeUnit (n : Nat) : List Char :=
  '\\' :: 'u' :: Text.hexDigits 4 n

/-- A character inside quotes: quotes, backslashes and whatever is not visible ASCII are escaped,
characters outside the basic plane as two units. -/
def escapeChar (c : Char) : List Char :=
  match c with
  | '"' => ['\\', '"']
  | '\\' => ['\\', '\\']
  | '\n' => ['\\', 'n']
  | '\r' => ['\\', 'r']
  | '\t' => ['\\', 't']
  | '\x08' => ['\\', 'b']
  | '\x0c' => ['\\', 'f']
  | c =>
    let n := c.toNat
    if 0x20 ≤ n ∧ n < 0x7F then [c]
    else if n < 0x10000 then escapeUnit n
    else escapeUnit (0xD800 + (n - 0x10000) / 0x400) ++ escapeUnit (0xDC00 + (n - 0x10000) % 0x400)

/-- A raw byte is written as the lone unit `DC00` plus the byte, which no character yields. -/
def escapeGlyph : Glyph → List Char
  | .char c => escapeChar c
  | .byte b => escapeUnit (0xDC00 + b.toNat)

def quote (t : Text) : List Char :=
  '"' :: t.flatMap escapeGlyph ++ ['"']

def floatWords : FloatWords := ⟨"Infinity", "NaN"⟩

/-- What stands between the parts of a written array or object. -/
structure Layout where
  /-- After the opening bracket, at a depth. -/
  opening : Nat → List Char
  /-- Between two members. -/
  between : Nat → List Char
  /-- Before the closing bracket. -/
  closing : Nat → List Char

def oneLine : Layout where
  opening _ := []
  between _ := [',', ' ']
  closing _ := []

def indented : Layout where
  opening depth := '\n' :: List.replicate (2 * (depth + 1)) ' '
  between depth := ',' :: '\n' :: List.replicate (2 * (depth + 1)) ' '
  closing depth := '\n' :: List.replicate (2 * depth) ' '

mutual

def render (layout : Layout) (depth : Nat) : Json → List Char
  | null => "null".toList
  | bool b => if b then "true".toList else "false".toList
  | int n => (toString n).toList
  | float x => renderFloat floatWords x
  | str t => quote t
  | arr [] => ['[', ']']
  | arr (item :: items) =>
    '[' :: layout.opening depth ++ render layout (depth + 1) item ++
      renderItems layout depth items ++ layout.closing depth ++ [']']
  | obj [] => ['{', '}']
  | obj ((key, value) :: members) =>
    '{' :: layout.opening depth ++ quote (text key) ++ ':' :: ' ' ::
      render layout (depth + 1) value ++
      renderMembers layout depth members ++ layout.closing depth ++ ['}']

def renderItems (layout : Layout) (depth : Nat) : List Json → List Char
  | [] => []
  | item :: items =>
    layout.between depth ++ render layout (depth + 1) item ++ renderItems layout depth items

def renderMembers (layout : Layout) (depth : Nat) : List (String × Json) → List Char
  | [] => []
  | (key, value) :: members =>
    layout.between depth ++ quote (text key) ++ ':' :: ' ' :: render layout (depth + 1) value ++
      renderMembers layout depth members

end

mutual

def sortKeys : Json → Json
  | arr items => arr (sortKeysAll items)
  | obj members => obj ((sortKeysMembers members).mergeSort fun a b => a.1 ≤ b.1)
  | other => other

def sortKeysAll : List Json → List Json
  | [] => []
  | item :: items => sortKeys item :: sortKeysAll items

def sortKeysMembers : List (String × Json) → List (String × Json)
  | [] => []
  | (key, value) :: members => (key, sortKeys value) :: sortKeysMembers members

end

def compact (j : Json) : String :=
  String.ofList (render oneLine 0 j)

def pretty (j : Json) : String :=
  String.ofList (render indented 0 j)

end ResourceScript.Json
