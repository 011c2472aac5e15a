import ResourceScript.Template.Basic

namespace ResourceScript

def firstFreeId : Int := 128

def leastFree (taken : List Int) (n : Int) : Int :=
  if n ∈ taken then leastFree (taken.erase n) (n + 1) else n
termination_by taken.length
decreasing_by
  rename_i h
  have := List.length_pos_of_mem h
  rw [List.length_erase_of_mem h]
  omega

structure Registry where
  types : List TypeTemplate
  active? : Option TypeTemplate
  /-- The ids that are taken, each with the name of the type it is taken for. -/
  claims : List (String × Int)
  deriving Repr

namespace Registry

def typeNames (r : Registry) : List String :=
  r.types.map (·.name)

def knownNames (r : Registry) : List String :=
  r.typeNames.mergeSort

def typeNamed (r : Registry) (name : String) : Except Failure TypeTemplate :=
  match r.types.find? (·.name == name) with
  | some t => .ok t
  | none => .error (Problem.unknownType name r.knownNames).anywhere

def select (r : Registry) (name : String) : Except Failure Registry := do
  let t ← r.typeNamed name
  return { r with active? := t }

def active (r : Registry) : Except Failure TypeTemplate :=
  match r.active? with
  | some t => .ok t
  | none => .error (Problem.noTypeSelected r.knownNames).anywhere

def duplicate? (seen : List String) : List TypeTemplate → Option String
  | [] => none
  | t :: ts => if t.name ∈ seen then some t.name else duplicate? (t.name :: seen) ts

/-- The registry of types with different names. Of several types none is in use unless it is asked
for; a single one is. -/
def ofTypes (types : List TypeTemplate) (name : Option String) : Except Failure Registry :=
  match duplicate? [] types with
  | some t => .error (Problem.template (.duplicateType t)).anywhere
  | none =>
    match name with
    | some name => { types, active? := none, claims := [] : Registry }.select name
    | none =>
      match types with
      | [t] => .ok { types, active? := t, claims := [] }
      | _ => .ok { types, active? := none, claims := [] }

def idsOf (r : Registry) (type : String) : List Int :=
  (r.claims.filter (·.1 == type)).map (·.2)

def withClaim (r : Registry) (type : String) (id : Int) : Registry :=
  { r with claims := (type, id) :: r.claims }

/-- Why a taken id is refused. An id of too many digits has no message to name it. -/
def refusal (id : Int) (type : String) (position : Option Position) : Failure :=
  if Text.isShown id then .problem (.duplicateId id type) position else .fault .noSuchValue

theorem refusal_of_shown {id : Int} (h : Text.isShown id = true) (type : String)
    (position : Option Position) :
    refusal id type position = .problem (.duplicateId id type) position :=
  if_pos h

theorem refusal_of_not_shown {id : Int} (h : Text.isShown id = false) (type : String)
    (position : Option Position) : refusal id type position = .fault .noSuchValue :=
  if_neg (Bool.eq_false_iff.mp h)

/-- Takes an id for the type in use: the one asked for, unless it is taken, or else the least free
one. -/
def claim (r : Registry) (id : Option Int) (position : Option Position) :
    Except Failure (Int × Registry) := do
  let t ← r.active
  let taken := r.idsOf t.name
  match id with
  | none =>
    let free := leastFree taken firstFreeId
    return (free, r.withClaim t.name free)
  | some n =>
    if n ∈ taken then .error (refusal n t.name position)
    else return (n, r.withClaim t.name n)

def fieldNamed (r : Registry) (token : Token) : Except Failure FieldTemplate := do
  (← r.active).fieldNamed token

/-- The type and the constants of an entry of the type in use. An entry that is not there has no
known type. -/
def entryNamed (r : Registry) (name : String) :
    Except Failure (List (String × SymbolValue) × ValueType) := do
  let t ← r.active
  return (t.symbolsOf name, t.typeOf name)

end Registry

end ResourceScript
