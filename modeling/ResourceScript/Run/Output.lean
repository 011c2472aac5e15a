import ResourceScript.Json.Printer
import ResourceScript.Resource.Manifest
import ResourceScript.Run.Basic

namespace ResourceScript.Run

def writeFailure (p : Path) : PathError → Failure
  | .unusable => .fault .unusablePath
  | e => (Problem.writeFailed p.render e.reason).anywhere

def writeResource (directory : Path) (x : Resource) : Run Path := do
  ensureShown x.id
  let file := directory.join x.file
  match ← writeFile file x.data with
  | .error e => throw (writeFailure file e)
  | .ok () =>
    note (text "wrote " ++ file.render ++ text s!" ({x.data.length} bytes)")
    return file

/-- Writes resources below a directory. Those before one that fails stay. -/
def writeResources (directory : Path) (resources : List Resource) : Run (List Path) :=
  resources.mapM (writeResource directory)

/-- Writes a manifest. Its directory is made even if there is nothing to write. -/
def writeManifest (p : Path) (m : Manifest) : Run Unit := do
  let checked (outcome : Except PathError Unit) : Run Unit :=
    ofExcept (outcome.mapError fun e => .fault (e.fault p))
  checked (← ensureDirectories p.parent)
  let j ← ofExcept (m.toJson.mapError .fault)
  checked (← writeFile p (text (j.sortKeys.pretty ++ "\n")).utf8)

end ResourceScript.Run
