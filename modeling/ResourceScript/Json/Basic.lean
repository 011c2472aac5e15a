import ResourceScript.Text.Glyph

namespace ResourceScript

inductive Json where
  | null
  | bool (b : Bool)
  | int (n : Int)
  | float (x : Float)
  | str (t : Text)
  | arr (items : List Json)
  | obj (members : List (String × Json))
  deriving Inhabited

namespace Json

def get? (key : String) : Json → Option Json
  | obj members => members.lookup key
  | _ => none

def ofString (s : String) : Json :=
  str (text s)

def ofOption (f : α → Json) : Option α → Json
  | none => null
  | some a => f a

end Json

/-- Sets a member: in its place if the key is there, else at the end. -/
def setMember (key : String) (value : α) : List (String × α) → List (String × α)
  | [] => [(key, value)]
  | (k, v) :: rest => if k = key then (k, value) :: rest else (k, v) :: setMember key value rest

theorem forall_mem_setMember {P : String × α → Prop} {members : List (String × α)}
    (h : ∀ m ∈ members, P m) (hv : P (key, value)) : ∀ m ∈ setMember key value members, P m := by
  fun_induction setMember key value members with
  | case1 => simpa using hv
  | case2 v rest =>
    rw [List.forall_mem_cons] at h ⊢
    exact ⟨hv, h.2⟩
  | case3 k v rest _ ih =>
    rw [List.forall_mem_cons] at h ⊢
    exact ⟨h.1, ih h.2⟩

def mergeMembers (members added : List (String × α)) : List (String × α) :=
  added.foldl (fun all m => setMember m.1 m.2 all) members

end ResourceScript
