import ResourceScript.Report.Diagnostic
import ResourceScript.Report.Task

namespace ResourceScript

inductive Level where
  | status
  | warning
  | error
  /-- Of interest only to those who ask for that many details. -/
  | verbose (threshold : Int)
  deriving DecidableEq, Repr

inductive Event where
  | taskStart (id name : String) (total : Option Int) (details : Details)
  | taskAdvance (id : String) (step : Int) (details : Details)
  | taskEnd (id : String) (status : TaskStatus) (details : Details)
  | message (level : Level) (message : Text) (details : Details)
  | diagnostic (d : Diagnostic) (source : Option String)
  | heading (title : String)
  /-- Nothing more comes for a while, so that what is shown has to be complete. -/
  | flush

namespace Event

def details : Event → Details
  | taskStart _ _ _ d | taskAdvance _ _ d | taskEnd _ _ d | message _ _ d => d
  | diagnostic .. | heading _ | flush => []

def ownNames : Event → List String
  | taskStart .. => ["self", "task_id", "name", "total"]
  | taskAdvance .. => ["self", "task_id", "step"]
  | taskEnd .. => ["self", "task_id", "status"]
  | message (.verbose _) .. => ["self", "message", "level"]
  | message .. => ["self", "message"]
  | diagnostic .. | heading _ | flush => []

def NamesFree (e : Event) : Prop :=
  ∀ d ∈ e.details, d.1 ∉ e.ownNames

instance (e : Event) : Decidable e.NamesFree :=
  inferInstanceAs (Decidable (∀ d ∈ e.details, d.1 ∉ e.ownNames))

/-- What an event makes of the tasks under way, and the task that it is about. Nothing, if that task
is not under way. -/
def follow (tasks : TaskTable) : Event → Option (Option Task × TaskTable)
  | taskStart id name total details =>
    let t := Task.start name total details
    some (some t, tasks.start id t)
  | taskAdvance id step details => (tasks.advance id step details).map fun r => (some r.1, r.2)
  | taskEnd id _ details => (tasks.finish id details).map fun r => (some r.1, r.2)
  | message .. | diagnostic .. | heading _ | flush => some (none, tasks)

end Event

end ResourceScript
