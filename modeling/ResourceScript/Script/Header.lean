import ResourceScript.Script.Cursor

namespace ResourceScript

structure Header where
  id : Option Int
  name : Option Text
  deriving DecidableEq, Repr

namespace Cursor

def newWord : Expectation :=
  .word "new"

def isAtDeclaration (c : Cursor) : Bool :=
  c.expects [newWord]

end Cursor

/-- The number of a token that may stand for an id: a resource id, or a plain integer. -/
def Lexeme.idNumber? : Lexeme → Option Int
  | .resourceId n => some n
  | .integer n => some n
  | _ => none

def Lexeme.string? : Lexeme → Option Text
  | .string t => some t
  | _ => none

namespace Header

def contents : CursorM Header := do
  let token ← CursorM.peek
  match token.lexeme.idNumber? with
  | some id =>
    let _ ← CursorM.read
    if ← CursorM.expects [.ofKind .comma, .ofKind .string] then
      let _ ← CursorM.read
      let name ← CursorM.read
      return { id, name := name.lexeme.string? }
    else return { id, name := none }
  | none =>
    match token.lexeme.string? with
    | some name =>
      let _ ← CursorM.read
      return { id := none, name }
    | none => return { id := none, name := none }

def read : CursorM Header := do
  let _ ← CursorM.ensure [Cursor.newWord, .ofKind .leftParen]
  let header ← contents
  CursorM.ensureKind .rightParen
  return header

end Header

end ResourceScript
