import ResourceScript.Command.Execute
import ResourceScript.Script.Tokenize

namespace ResourceScript.Disk

def nameOf (parts : List Text) : String :=
  "/" ++ "/".intercalate (parts.map Text.toString)

/-- Takes in what stands at a place, and all that is below it if asked. -/
partial def take (deep : Bool) (parts : List Text) (tree : FileTree) : IO FileTree := do
  let path := (← IO.currentDir) / nameOf parts
  let place := parts.map Text.utf8
  if ← path.isDir then
    let tree := tree.set place .directory
    if deep then
      (← path.readDir).foldlM (fun t e => take true (parts ++ [text e.fileName]) t) tree
    else return tree
  else if ← path.pathExists then
    return tree.set place (.file (← IO.FS.readBinFile path).toList)
  else return tree

def takePath (deep : Bool) (tree : FileTree) (p : Path) : IO FileTree := do
  let parts := if p.anchor = .relative then tree.working ++ p.parts else p.parts
  let way := (List.range parts.length).map fun n => Path.normalize (parts.take n)
  let tree ← way.foldlM (fun t place => take false place t) tree
  take deep (Path.normalize parts) tree

/-- The files that a script may import: those that its strings name. -/
def importable (tree : FileTree) (o : BuildOrder) : List Path :=
  match tree.readText o.script with
  | .error _ => []
  | .ok source =>
    match tokenize source with
    | .error _ => []
    | .ok tokens =>
      tokens.filterMap fun t => t.lexeme.string?.map fun name =>
        (o.sources.getD o.script.parent).join (.ofText name)

def forCommand (tree : FileTree) : Command → IO FileTree
  | .build o _ => do
    let tree ← [o.script, o.types].foldlM (takePath false) tree
    let tree ← (importable tree o).foldlM (takePath false) tree
    let tree ← o.output.toList.foldlM (takePath true) tree
    o.manifest.toList.foldlM (takePath false) tree
  | .inspect resource types _ _ => [resource, types].foldlM (takePath false) tree
  | .list types _ => takePath false tree types

def putBack (before after : FileTree) : IO Unit := do
  for (place, node) in after.nodes do
    if before.node? place ≠ some node then
      let name := "/" ++ "/".intercalate (place.map fun b => (String.fromUTF8? ⟨b.toArray⟩).getD "")
      match node with
      | .directory => IO.FS.createDirAll name
      | .file data => IO.FS.writeBinFile name ⟨data.toArray⟩

def send (stream : IO.FS.Stream) (t : Text) : IO Unit := do
  stream.write ⟨t.utf8.toArray⟩
  stream.flush

def terminal : IO (Option Nat) := do
  if ← (← IO.getStderr).isTty then
    return some (((← IO.getEnv "COLUMNS").bind String.toNat?).getD 80)
  else return none

def surroundings : IO Surroundings := do
  return {
    encoding := ← IO.getEnv "RSRCGEN_TEXT_ENCODING"
    fileLimit := ← IO.getEnv "RSRCGEN_MAX_FILE_SIZE" }

def carryOut (i : Invocation) : IO UInt32 := do
  let working := (Path.ofString (← IO.currentDir).toString).parts
  let files ← forCommand { working, nodes := [] } i.command
  let workspace : Workspace := { files, reporter := { style := i.style (← terminal) } }
  let (status, after) := match i.run (← surroundings) workspace with
    | .ok status w => (status, w)
    | .error _ w =>
      let written := w.reporter.written ++ text "The run broke off.\n"
      (1, { w with reporter.written := written })
  putBack files after.files
  send (← IO.getStdout) after.printed
  send (← IO.getStderr) after.reporter.written
  return status.toUInt32

def usage : String :=
  "usage: [-v] [-r plain|rich|json|silent] build SCRIPT -t TYPES [--type TYPE] [-o DIRECTORY]\n" ++
  "           [--source-root DIRECTORY] [--emit-manifest FILE] [--encoding NAME] [--json]\n" ++
  "       [-v] [-r plain|rich|json|silent] inspect RESOURCE -t TYPES [--type TYPE] [--json]\n" ++
  "       [-v] [-r plain|rich|json|silent] types TYPES [--json]"

end ResourceScript.Disk

open ResourceScript in
def main (words : List String) : IO UInt32 := do
  match Invocation.ofWords words with
  | .ok i => Disk.carryOut i
  | .error .help =>
    IO.println Disk.usage
    return 0
  | .error _ =>
    IO.eprintln Disk.usage
    return 2
