import ResourceScript.Json.Printer
import ResourceScript.Report.Event
import ResourceScript.Report.Summary

namespace ResourceScript

/-- An object for an event with its parts and details. Two of one name cannot be told apart. -/
def Details.record (details : Details) (event : String) (parts : Details) : Except Fault Json :=
  let taken := "self" :: "event" :: parts.map Prod.fst
  if (∀ d ∈ details, d.1 ∉ taken) ∧ (details.map Prod.fst).Nodup then
    .ok (Json.obj (("event", .ofString event) :: parts ++ details)).sortKeys
  else .error .nameTaken

namespace Level

def recordName : Level → String
  | status => "info"
  | warning => "warning"
  | error => "error"
  | verbose threshold => s!"verbose{threshold}"

def recordParts (l : Level) : Details :=
  ("level", .ofString l.recordName) ::
    match l with
    | verbose threshold => [("vlevel", .int threshold)]
    | _ => []

end Level

def Summary.record (s : Summary) (raw : Text) (details : Details) : Except Fault Json :=
  Details.record (s.pairs.map (fun p => (p.1, .str p.2)) ++ details) "summary"
    [("summary_type", .str s.kind), ("raw", .str raw)]

namespace Event

def messageRecord (level : Level) (message : Text) (details : Details) : Except Fault Json :=
  details.record "status" (("message", .str message) :: level.recordParts)

/-- The objects that tell of an event, given the task it is about. A status message that reads as a
summary is told as that first. -/
def records (task : Option Task) : Event → List (Except Fault Json)
  | taskStart id name total details =>
    [details.record "task_start"
      [("id", .ofString id), ("name", .ofString name), ("total", .ofOption .int total)]]
  | taskAdvance id _ details =>
    task.toList.map fun t =>
      details.record "task_progress" [("id", .ofString id), ("completed", .int t.completed)]
  | taskEnd id status _ =>
    task.toList.map fun t =>
      t.details.record "task_end"
        [("id", .ofString id), ("status", .ofString status.name), ("completed", .int t.completed),
          ("total", .ofOption .int t.total), ("duration_seconds", .float 0.0)]
  | message .status m details =>
    ((Summary.ofMessage? m).map (·.record m details)).toList ++ [messageRecord .status m details]
  | message level m details => [messageRecord level m details]
  | diagnostic d _ => [Details.record [] "diagnostic" (("level", .ofString "error") :: d.toMembers)]
  | heading title => [Details.record [] "section" [("title", .ofString title)]]
  | flush => []

end Event

end ResourceScript
