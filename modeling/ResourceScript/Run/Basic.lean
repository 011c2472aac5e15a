import ResourceScript.Files.Tree
import ResourceScript.Report.Reporter

namespace ResourceScript

structure Workspace where
  files : FileTree
  reporter : Reporter
  /-- What was printed. -/
  printed : Text := []

abbrev Run := EStateM Failure Workspace

namespace Run

def ofExcept (e : Except Failure α) : Run α := fun w =>
  match e with
  | .ok a => .ok a w
  | .error f => .error f w

def ensureShown (n : Int) : Run Unit :=
  if Text.isShown n then pure () else throw (.fault .noSuchValue)

def reporting (m : Report α) : Run α := fun w =>
  match m w.reporter with
  | .ok a r => .ok a { w with reporter := r }
  | .error f r => .error (.fault f) { w with reporter := r }

def report (e : Event) : Run Unit :=
  reporting (Reporter.report e)

def note (line : Text) : Run Unit :=
  reporting (Reporter.log .debug line)

def status (message : Text) : Run Unit :=
  report (.message .status message [])

def advance (id : String) (step : Int) (details : Details) : Run Unit :=
  report (.taskAdvance id step details)

/-- Work that is reported as a task. The task fails where the work does. -/
def task (id name : String) (total : Option Int) (details : Details) (work : Run α) : Run α := do
  report (.taskStart id name total details)
  let a ← tryCatch work fun failure => do
    report (.taskEnd id .failed [])
    throw failure
  report (.taskEnd id .success [])
  return a

def print (line : Text) : Run Unit :=
  modify fun w => { w with printed := w.printed ++ line ++ text "\n" }

def ensureDirectories (p : Path) : Run (Except PathError Unit) :=
  modifyGet fun w =>
    let (files, done) := w.files.ensureDirectories p
    (done, { w with files })

def writeFile (p : Path) (data : Bytes) : Run (Except PathError Unit) := do
  match ← ensureDirectories p.parent with
  | .error e => return .error e
  | .ok () =>
    let w ← get
    match w.files.write p data with
    | .error e => return .error e
    | .ok files =>
      set { w with files }
      return .ok ()

end Run

end ResourceScript
