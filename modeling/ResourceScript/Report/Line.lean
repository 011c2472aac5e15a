import ResourceScript.Report.Event

namespace ResourceScript

def Text.line (t : Text) : Text :=
  t ++ text "\n"

namespace Level

def label : Level → Text
  | status => text "INFO"
  | warning => text "WARN"
  | error => text "ERROR"
  | verbose threshold => text s!"VERB{threshold}"

def color : Level → String
  | status => "32"
  | warning => "33"
  | error => "31"
  | verbose _ => "36"

def shownLabel (l : Level) (colored : Bool) : Text :=
  if colored then text s!"\x1b[{l.color}m" ++ l.label ++ text "\x1b[0m" else l.label

def line (l : Level) (colored : Bool) (message : Text) : Text :=
  (l.shownLabel colored ++ text ": " ++ message).line

end Level

namespace Event

/-- What is shown while a task advances: the item at hand, or else the number of steps done. -/
def progressLine (t : Task) (details : Details) : Text :=
  let item := match details.lookup "current_item" with
    | some item => item.display
    | none => text s!"#{t.completed}"
  let total := match t.total with
    | none => "?"
    | some total => toString total
  (text s!"   · {t.name}: " ++ item ++ text s!" ({t.completed}/{total})").line

/-- The lines about an event, given the task it is about. The steps of tasks are for those who ask
for details. -/
def plainText (colored : Bool) (verbosity : Nat) (task : Option Task) : Event → Text
  | taskStart .. | flush => []
  | taskAdvance _ _ details =>
    match task with
    | some t => if 1 ≤ verbosity then progressLine t details else []
    | none => []
  | taskEnd _ status _ =>
    match task with
    | some t => (text " " ++ t.outcome (status.icon?.getD "?")).line
    | none => []
  | message level m _ => level.line colored m
  | diagnostic d source => Level.error.line colored (Text.join (text "\n") (d.lines source))
  | heading title => (text s!"\n[{title}]").line

end Event

end ResourceScript
