import ResourceScript.Failure
import ResourceScript.Files.Path

namespace ResourceScript

inductive FileNode where
  | file (data : Bytes)
  | directory
  deriving DecidableEq, Repr

abbrev Place := List Bytes

inductive PathError where
  | missing
  | notDirectory
  | isDirectory
  | taken
  | nameTooLong
  /-- The path holds a zero character. -/
  | unusable
  deriving DecidableEq, Repr

namespace PathError

def reason : PathError → String
  | missing => "No such file or directory"
  | notDirectory => "Not a directory"
  | isDirectory => "Is a directory"
  | taken => "File exists"
  | nameTooLong => "File name too long"
  | unusable => "embedded null byte"

def fault (path : Path) : PathError → Fault
  | missing => .missingFile path.render
  | taken => .fileExists
  | unusable => .unusablePath
  | notDirectory | isDirectory | nameTooLong => .fileSystem

end PathError

structure FileTree where
  /-- The parts of the working directory. -/
  working : List Text
  nodes : List (Place × FileNode)
  deriving Repr

namespace FileTree

def maxName : Nat := 255

def maxPath : Nat := 4095

/-- What stands at a place. The root is always a directory. -/
def node? (t : FileTree) (place : Place) : Option FileNode :=
  if place.isEmpty then some .directory else t.nodes.lookup place

def setNode (place : Place) (node : FileNode) : List (Place × FileNode) → List (Place × FileNode)
  | [] => [(place, node)]
  | (p, n) :: rest => if p = place then (p, node) :: rest else (p, n) :: setNode place node rest

def set (t : FileTree) (place : Place) (node : FileNode) : FileTree :=
  { t with nodes := setNode place node t.nodes }

/-- The place that names lead to from a place. All on the way have to be directories; the last one
need not be there. -/
def walk (t : FileTree) (place : Place) : List Bytes → Except PathError Place
  | [] => .ok place
  | name :: names =>
    match t.node? place with
    | none => .error .missing
    | some (.file _) => .error .notDirectory
    | some .directory =>
      if name = Path.parentPart.utf8 then t.walk place.dropLast names
      else if name.length > maxName then .error .nameTooLong
      else t.walk (place ++ [name]) names

def locate (t : FileTree) (p : Path) : Except PathError Place :=
  if p.hasZero then .error .unusable
  else if p.render.utf8.length > maxPath then .error .nameTooLong
  else t.walk (if p.anchor = .relative then t.working.map Text.utf8 else []) (p.parts.map Text.utf8)

def stat (t : FileTree) (p : Path) : Except PathError FileNode := do
  match t.node? (← t.locate p) with
  | some node => return node
  | none => throw .missing

def read (t : FileTree) (p : Path) : Except PathError Bytes := do
  match ← t.stat p with
  | .file data => return data
  | .directory => throw .isDirectory

/-- The tree with a file that holds the data, in place of the file that was there before. -/
def write (t : FileTree) (p : Path) (data : Bytes) : Except PathError FileTree := do
  let place ← t.locate p
  match t.node? place with
  | some .directory => throw .isDirectory
  | _ => return t.set place (.file data)

def makeDirectory (t : FileTree) (p : Path) : Except PathError FileTree := do
  let place ← t.locate p
  if (t.node? place).isSome then throw .taken
  return t.set place .directory

def isDirectory (t : FileTree) (p : Path) : Bool :=
  match t.stat p with
  | .ok .directory => true
  | _ => false

def ensureDirectory (t : FileTree) (p : Path) : FileTree × Except PathError Unit :=
  match t.makeDirectory p with
  | .ok t' => (t', .ok ())
  | .error e => (t, if t.isDirectory p then .ok () else .error e)

/-- Makes a directory and those above it that are not there yet. Also gives the tree that is left
where this fails. -/
def ensureDirectories (t : FileTree) (p : Path) : FileTree × Except PathError Unit :=
  match t.ensureDirectory p with
  | (t, .error .missing) =>
    if p.parts = [] then (t, .error .missing)
    else
      match ensureDirectories t p.parent with
      | (t', .ok ()) => t'.ensureDirectory p
      | (t', .error e) => (t', .error e)
  | done => done
termination_by p.parts.length
decreasing_by
  rename_i h
  have := List.length_pos_iff.mpr h
  simp [Path.parent]; omega

end FileTree

end ResourceScript
