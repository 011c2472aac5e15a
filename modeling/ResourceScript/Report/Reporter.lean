import ResourceScript.Report.Console
import ResourceScript.Report.Record

namespace ResourceScript

inductive Style where
  /-- Lines of text. -/
  | plain (colored : Bool)
  /-- JSON objects, one a line. -/
  | records
  /-- Text on a console of that width. -/
  | console (width : Nat)
  | silent
  /-- No style was chosen, so that there is no way to report anything. -/
  | unset
  deriving DecidableEq, Repr

inductive Severity where
  | debug
  | info
  | warning
  | error
  | critical
  deriving DecidableEq, Repr

namespace Severity

def level : Severity → Level
  | debug => .verbose 1
  | info => .status
  | warning => .warning
  | error | critical => .error

end Severity

structure Reporter where
  style : Style
  /-- How many details are asked for. -/
  verbosity : Nat := 0
  /-- Whether debugging lines of the log are reported; if not known, none of the log is. -/
  debugging : Option Bool := none
  tasks : TaskTable := []
  bars : Bars := {}
  /-- All that was written. -/
  written : Text := []

abbrev Report := EStateM Fault Reporter

namespace Reporter

def heeds (r : Reporter) : Event → Bool
  | .message (.verbose threshold) .. => threshold ≤ r.verbosity
  | _ => true

def write (t : Text) : Report Unit :=
  modify fun r => { r with written := r.written ++ t }

def writeRecords (records : List (Except Fault Json)) : Report Unit :=
  records.forM fun
    | .ok j => write (text j.compact).line
    | .error f => throw f

def tell (task : Option Task) (e : Event) : Report Unit := do
  let r ← get
  match r.style with
  | .plain colored => write (e.plainText colored r.verbosity task)
  | .records => writeRecords (e.records task)
  | .console width =>
    let (t, bars) := e.consoleText width r.bars task
    write t
    modify ({ · with bars })
  | .silent | .unset => pure ()

def report (e : Event) : Report Unit := do
  if ¬ e.NamesFree then throw .nameTaken
  let r ← get
  match r.style, e with
  | .silent, _ | .unset, .message (.verbose _) .. | .unset, .flush => pure ()
  | .unset, _ => throw .notReported
  | _, _ =>
    if r.heeds e then
      if let some (task, tasks) := e.follow r.tasks then
        set { r with tasks }
        tell task e

def log (severity : Severity) (line : Text) : Report Unit := do
  match (← get).debugging with
  | none => pure ()
  | some debugging =>
    if severity = .debug ∧ ¬ debugging then pure ()
    else report (.message severity.level line [])

/-- Asks for details; fewer than none are none. -/
def setVerbosity (n : Int) : Report Nat := do
  modify ({ · with verbosity := n.toNat })
  return n.toNat

def setLogging (verbosity : Int) : Report Unit :=
  modify ({ · with debugging := some (1 ≤ verbosity) })

end Reporter

end ResourceScript
