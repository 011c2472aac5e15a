import ResourceScript.Document.Display
import ResourceScript.Failure

namespace ResourceScript.Document

def shownDepth : Nat := 990

mutual

/-- Why a document inside `depth` others is not shown, given the same of the parts with numbers. -/
def obstacleWith (part : Nat → Nat → Option Fault) (depth : Nat) : Document → Option Fault
  | int n => if Text.isShown n then none else some .noSuchValue
  | pair first second => (obstacleWith part (depth + 1) first).or
    (obstacleWith part (depth + 1) second)
  | list items | set items => obstacleAmong part (depth + 1) items
  | map members => obstacleAmongMembers part (depth + 1) members
  | shared n => if shownDepth < depth then some .nestedTooDeep else part depth n
  | _ => none

def obstacleAmong (part : Nat → Nat → Option Fault) (depth : Nat) : List Document → Option Fault
  | [] => none
  | item :: items => (obstacleWith part depth item).or (obstacleAmong part depth items)

def obstacleAmongMembers (part : Nat → Nat → Option Fault) (depth : Nat) :
    List (Document × Document) → Option Fault
  | [] => none
  | (key, value) :: members =>
    ((obstacleWith part depth key).or (obstacleWith part depth value)).or
      (obstacleAmongMembers part depth members)

end

/-- Why a document inside the parts `around` is not shown, looking at most `fuel` parts deep. -/
def obstacleInside (parts : Parts) (around : List Nat) : Nat → Nat → Document → Option Fault
  | 0, _, _ => none
  | fuel + 1, depth, d =>
    obstacleWith (fun depth n =>
      if around.contains n then none
      else obstacleInside parts (n :: around) fuel depth (whole parts (shared n))) depth d

def shown (parts : Parts) (d : Document) : Except Fault String :=
  match obstacleInside parts [] (parts.size + 1) 0 d with
  | none => .ok (display parts d)
  | some fault => .error fault

end ResourceScript.Document
