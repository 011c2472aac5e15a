import ResourceScript.Failure

namespace ResourceScript

inductive SymbolValue where
  | integer (n : Int)
  | text (s : String)
  deriving DecidableEq, Repr

structure Entry where
  name : String
  type : ValueType
  deriving DecidableEq, Repr

/-- An entry that a field fills, with the constants that may be named for it. -/
structure Slot where
  name : String
  type : ValueType
  symbols : List (String × SymbolValue) := []
  deriving DecidableEq, Repr

/-- What the template of a field says on how its value is written. -/
structure FieldTag where
  name : String
  isReference : Bool := false
  deriving DecidableEq, Repr

/-- A field of a type. It fills at least one slot. -/
structure FieldTemplate where
  name : String
  first : Slot
  others : List Slot := []
  tag : Option FieldTag := none
  deriving DecidableEq, Repr

namespace FieldTemplate

def slots (f : FieldTemplate) : List Slot :=
  f.first :: f.others

def ofSlots (name : String) (slots : List Slot) (tag : Option FieldTag) :
    Except Failure FieldTemplate :=
  match slots with
  | first :: others => .ok { name, first, others, tag }
  | [] => .error (Problem.template (.noValues name)).anywhere

end FieldTemplate

structure TypeTemplate where
  name : String
  /-- The code that the resources of the type are filed under. -/
  code : String
  entries : List Entry
  fields : List FieldTemplate
  deriving DecidableEq, Repr

namespace TypeTemplate

def entry? (t : TypeTemplate) (name : String) : Option Entry :=
  t.entries.find? (·.name == name)

def field? (t : TypeTemplate) (name : String) : Option FieldTemplate :=
  t.fields.find? (·.name == name)

def fieldNamed (t : TypeTemplate) (token : Token) : Except Failure FieldTemplate :=
  match t.field? token.text with
  | some f => .ok f
  | none => .error ((Problem.unknownField token.text t.name).at token.position)

def slot? (t : TypeTemplate) (name : String) : Option Slot :=
  (t.fields.flatMap FieldTemplate.slots).find? (·.name == name)

def typeOf (t : TypeTemplate) (name : String) : ValueType :=
  ((t.entry? name).map (·.type)).getD .unknown

def symbolsOf (t : TypeTemplate) (name : String) : List (String × SymbolValue) :=
  if (t.entry? name).isSome then ((t.slot? name).map (·.symbols)).getD [] else []

end TypeTemplate

namespace Slot

def valueOf (s : Slot) (symbol : Token) : Except Failure SymbolValue :=
  match s.symbols.lookup symbol.text with
  | some value => .ok value
  | none => .error ((Problem.undefinedSymbol symbol.text s.name).at symbol.position)

end Slot

end ResourceScript
