import ResourceScript.Files.Tree
import ResourceScript.Text.Numeral

namespace ResourceScript

/-- The largest file that may be imported, in bytes, unless a setting asks for another size. -/
def defaultFileLimit : Int := 16 * 1024 * 1024

/-- The limit that a setting asks for. A setting that is no number asks for nothing. -/
def fileLimitOf (setting : Option String) : Int :=
  (setting.bind fun s => Text.intIn? 10 s.toList).getD defaultFileLimit

def sourcePath (working : List Text) (root : Path) (name : Text) : Except Failure Path :=
  let base := root.resolve working
  let joined := base.join (.ofText name)
  let full := joined.resolve working
  if root.hasZero || joined.hasZero || !base.parts.isPrefixOf full.parts then
    .error (Problem.pathEscape name root.render).anywhere
  else .ok full

namespace FileTree

def readWithin (t : FileTree) (limit : Int) (p : Path) : Except Failure Bytes :=
  match t.stat p with
  | .ok (.file data) =>
    if limit < data.length then .error (Problem.fileTooLarge p.render data.length limit).anywhere
    else .ok data
  | .error .nameTooLong => .error (.fault (PathError.nameTooLong.fault p))
  | _ => .error (Problem.fileMissing p.render).anywhere

end FileTree

end ResourceScript
