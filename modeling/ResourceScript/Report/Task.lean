import ResourceScript.Document.Display
import ResourceScript.Document.OfJson

namespace ResourceScript

abbrev Details := List (String × Json)

def Json.display : Json → Text
  | .str t => t
  | other => text ((Document.ofJson other).display #[])

inductive TaskStatus where
  | running
  | success
  | failed
  | skipped
  deriving DecidableEq, Repr

namespace TaskStatus

def name : TaskStatus → String
  | running => "running"
  | success => "success"
  | failed => "failed"
  | skipped => "skipped"

def icon? : TaskStatus → Option String
  | running => none
  | success => some "✔"
  | failed => some "✖"
  | skipped => some "→"

end TaskStatus

structure Task where
  name : String
  /-- How many steps there are, if that is known. -/
  total : Option Int
  /-- How many steps are done. -/
  completed : Int
  /-- The details told so far, the latest of each name. -/
  details : Details

namespace Task

def start (name : String) (total : Option Int) (details : Details) : Task where
  name
  total
  completed := 0
  details

def advance (step : Int) (details : Details) (t : Task) : Task :=
  { t with completed := t.completed + step, details := mergeMembers t.details details }

def finish (details : Details) (t : Task) : Task :=
  { t with details := mergeMembers t.details details }

def figureNames : List String :=
  ["resources", "bytes", "files"]

def figures (t : Task) : Text :=
  let parts := figureNames.filterMap fun name =>
    (t.details.lookup name).map fun value => text name ++ text "=" ++ value.display
  if parts.isEmpty then [] else text " [" ++ Text.join (text " ") parts ++ text "]"

/-- How long a task took. No time passes while it is under way. -/
def duration : Text :=
  text " (0.00s)"

def outcome (t : Task) (icon : String) : Text :=
  let count := match t.total with
    | none => []
    | some total => text s!" {t.completed}/{total}"
  text icon ++ text " " ++ text t.name ++ count ++ duration ++ t.figures

end Task

abbrev TaskTable := List (String × Task)

namespace TaskTable

def start (id : String) (task : Task) (tasks : TaskTable) : TaskTable :=
  setMember id task tasks

def advance (id : String) (step : Int) (details : Details) (tasks : TaskTable) :
    Option (Task × TaskTable) :=
  (tasks.lookup id).map fun t =>
    let t := t.advance step details
    (t, setMember id t tasks)

def finish (id : String) (details : Details) (tasks : TaskTable) : Option (Task × TaskTable) :=
  (tasks.lookup id).map fun t => (t.finish details, tasks.filter (·.1 ≠ id))

end TaskTable

end ResourceScript
