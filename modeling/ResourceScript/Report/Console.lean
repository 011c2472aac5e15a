import ResourceScript.Report.Line

namespace ResourceScript

def dashes (n : Nat) : Text :=
  List.replicate n (.char '─')

def rule (width : Nat) (title : Text) : Text :=
  if title.isEmpty then dashes width
  else
    let left := (width - title.length) / 2 - 1
    (dashes left ++ text " " ++ title ++ text " " ++ dashes width).take width

structure Bars where
  /-- The tasks that have one. -/
  ids : List String := []
  /-- Whether they are on display. -/
  shown : Bool := false
  deriving DecidableEq, Repr

namespace Bars

def add (id : String) (b : Bars) : Bars where
  ids := if b.ids.contains id then b.ids else b.ids ++ [id]
  shown := true

def clear (b : Bars) : Text × Bars :=
  (if b.shown then text "\n" else [], { b with shown := false })

def close (id : String) (b : Bars) : Text × Bars :=
  let b := { b with ids := b.ids.filter (· ≠ id) }
  if b.ids.isEmpty then b.clear else ([], b)

end Bars

namespace Event

/-- What an event writes to a console, given the task it is about, and the bars it leaves. -/
def consoleText (width : Nat) (bars : Bars) (task : Option Task) : Event → Text × Bars
  | taskStart id name total _ =>
    if total.isSome then ([], bars.add id) else ((rule width (text name)).line, bars)
  | taskAdvance .. => ([], bars)
  | taskEnd id status _ =>
    match task with
    | some t =>
      let (ending, bars) := bars.close id
      ((t.outcome (status.icon?.getD "")).line ++ ending, bars)
    | none => ([], bars)
  | message level m _ => (level.line false m, bars)
  | diagnostic d source =>
    (Level.error.line false (Text.join (text "\n") (d.lines source)), bars)
  | heading title => ((rule width (text title)).line, bars)
  | flush => bars.clear

end Event

end ResourceScript
