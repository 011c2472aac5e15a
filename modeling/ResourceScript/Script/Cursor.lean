import ResourceScript.Failure

namespace ResourceScript

structure Cursor where
  /-- The tokens from here on, the end of input left out. -/
  rest : List Token
  /-- The end of input. -/
  last : Token
  /-- The number of tokens already consumed. -/
  index : Nat := 0
  last_kind : last.kind = .endOfInput
  deriving DecidableEq, Repr

namespace Cursor

def ofTokens (tokens : List Token) : Except Fault Cursor :=
  match tokens.getLast? with
  | some last =>
    if h : last.kind = .endOfInput then .ok { rest := tokens.dropLast, last, last_kind := h }
    else .error .streamWithoutEnd
  | none => .error .streamWithoutEnd

def peek (c : Cursor) (ahead : Nat := 0) : Token :=
  c.rest.getD ahead c.last

def isFinished (c : Cursor) : Bool :=
  c.peek.kind == .endOfInput

def advance (c : Cursor) (count : Nat := 1) : Cursor where
  rest := c.rest.drop count
  last := c.last
  index := c.index + min count c.rest.length
  last_kind := c.last_kind

def mismatch? (c : Cursor) : List Expectation → Option (Expectation × Token)
  | [] => none
  | e :: expectations =>
    if e.isMetBy c.peek then (c.advance).mismatch? expectations else some (e, c.peek)

def expects (c : Cursor) (expectations : List Expectation) : Bool :=
  (c.mismatch? expectations).isNone

end Cursor

abbrev CursorM := EStateM Failure Cursor

namespace CursorM

def read : CursorM Token := fun c =>
  .ok c.peek c.advance

def ensure (expectations : List Expectation) : CursorM (List Token) := fun c =>
  match c.mismatch? expectations with
  | some (expected, found) => .error ((Problem.unexpectedToken expected found).at found.position) c
  | none => .ok ((List.range expectations.length).map fun i => c.peek i)
    (c.advance expectations.length)

def ensureKind (kind : LexemeKind) : CursorM Unit := do
  let _ ← ensure [.ofKind kind]

def fail (f : Failure) : CursorM α := fun c =>
  .error f c

def ofExcept (e : Except Failure α) : CursorM α :=
  match e with
  | .ok a => pure a
  | .error f => fail f

def peek : CursorM Token := fun c =>
  .ok c.peek c

def expects (expectations : List Expectation) : CursorM Bool := fun c =>
  .ok (c.expects expectations) c

def isAt (kind : LexemeKind) : CursorM Bool :=
  expects [.ofKind kind]

end CursorM

end ResourceScript
