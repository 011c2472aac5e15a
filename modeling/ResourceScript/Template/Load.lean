import ResourceScript.Document.OfJson
import ResourceScript.Files.Tree
import ResourceScript.Json.Reader
import ResourceScript.Template.OfDocument
import ResourceScript.Template.Registry
import ResourceScript.Text.Decoded
import ResourceScript.Yaml.ToDocument

namespace ResourceScript

def yamlSuffixes : List String :=
  [".yaml", ".yml"]

def Path.isYaml (p : Path) : Bool :=
  yamlSuffixes.contains (p.suffix.toString.map Char.toLower)

def Document.Flaw.failure (p : Path) : Document.Flaw → Failure
  | malformed => (Problem.template (.unreadable p.render)).anywhere
  | fault cause => .fault cause

def Configuration.parse (p : Path) (source : String) : Except Failure Configuration :=
  let found :=
    if p.isYaml then Yaml.parse source.toList
    else (Json.parse source.toList).map fun j => { root := .ofJson j }
  found.mapError (Document.Flaw.failure p)

def FileTree.readText (t : FileTree) (p : Path) : Except Failure String := do
  let data ← (t.read p).mapError fun e => .fault (e.fault p)
  (decodeText data).mapError .fault

def loadTypes (t : FileTree) (p : Path) : Except Failure (List TypeTemplate) := do
  match t.stat p with
  | .error .nameTooLong => .error (.fault .fileSystem)
  | .error _ => .error (.fault (.missingFile p.render))
  | .ok _ =>
    let configuration ← Configuration.parse p (← t.readText p)
    TypeTemplate.allOfConfiguration configuration

def loadRegistry (t : FileTree) (p : Path) (type : Option String) : Except Failure Registry := do
  Registry.ofTypes (← loadTypes t p) type

end ResourceScript
