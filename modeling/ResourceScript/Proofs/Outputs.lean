import ResourceScript.Proofs.Concatenation
import ResourceScript.Proofs.Effects
import ResourceScript.Proofs.Manifests
import ResourceScript.Proofs.Recovery

namespace ResourceScript

namespace Run

end Run

namespace BuildOrder

def tellable (resources : List Resource) : Except Failure (List Resource) :=
  if IsTellable resources then .ok resources else .error (.fault .noSuchValue)

/-- The compilation of an order apart from the reports and the writing. -/
def compiled (o : BuildOrder) (surroundings : Surroundings) (files : FileTree) :
    Except Failure (TypeTemplate × List Resource) := do
  let registry ← loadRegistry files o.types o.type
  let type ← registry.active
  let source ← files.readText o.script
  let resources ← (compile (o.settings surroundings files) registry source
    o.script.render.toString).result >>= tellable
  return (type, resources)

variable {files : FileTree} {o : BuildOrder} {surroundings : Surroundings}
  {resources : List Resource} {directory : Path}

namespace Writes

variable {built : Built} {f f' : FileTree} {type : TypeTemplate}

end Writes

end BuildOrder

namespace Sample

def order : BuildOrder where
  script := .ofString "note.r"
  types := .ofString "note.json"
  output := some (.ofString "out")
  manifest := some (.ofString "out/manifest.json")
  encoding := some "ascii"

end Sample

end ResourceScript
