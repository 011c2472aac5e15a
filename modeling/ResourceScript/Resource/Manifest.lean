import ResourceScript.Bytes.Sha256
import ResourceScript.Failure
import ResourceScript.Json.Basic
import ResourceScript.Resource.Location

namespace ResourceScript

def totalBytes : List Resource → Nat
  | [] => 0
  | x :: rest => x.data.length + totalBytes rest

structure Manifest where
  script : Option Path
  type : Option String
  /-- The directory that files are named from. -/
  directory : Option Path
  /-- The resources, each with its file if it was written. -/
  entries : List (Resource × Option Path)

namespace Manifest

def fileName (directory : Option Path) (file : Path) : Except Fault Text :=
  match directory with
  | none => .ok file.render
  | some directory =>
    match file.relativeTo? directory with
    | some relative => .ok relative.render
    | none => .error .notBelow

def entryJson (directory : Option Path) (entry : Resource × Option Path) : Except Fault Json := do
  let (x, file) := entry
  let name ← file.mapM (fileName directory)
  return .obj ([("type", .ofString x.code), ("id", .int x.id), ("name", .str x.name),
    ("size", .int x.data.length), ("sha256", .ofString (Sha256.digest x.data))] ++
    (name.map fun t => ("file", Json.str t)).toList)

def toJson (m : Manifest) : Except Fault Json := do
  let entries ← m.entries.mapM (entryJson m.directory)
  return .obj [("version", .int 1), ("script", .ofOption (fun p => .str p.render) m.script),
    ("type", .ofOption .ofString m.type), ("resources", .arr entries),
    ("counts", .obj [("resources", .int entries.length)]),
    ("total_bytes", .int (totalBytes (m.entries.map (·.1))))]

end Manifest

end ResourceScript
