import ResourceScript.Resource.Declaration
import ResourceScript.Run.Output
import ResourceScript.Template.Load

namespace ResourceScript

/-- Settings from outside that hold for every run. -/
structure Surroundings where
  /-- The encoding of strings, for runs that do not ask for one. -/
  encoding : Option String := none
  /-- The largest file that may be imported. -/
  fileLimit : Option String := none
  /-- The encoders that are known besides those of the usual encodings. -/
  encoders : String → Option Encoder := Encoder.other?

structure BuildOrder where
  script : Path
  types : Path
  /-- The type to compile against, if the template file has several. -/
  type : Option String := none
  /-- The directory that imported files lie below, if not that of the script. -/
  sources : Option Path := none
  /-- The directory for the resources. -/
  output : Option Path := none
  /-- The file for the manifest. -/
  manifest : Option Path := none
  encoding : Option String := none

structure Built where
  resources : List Resource
  /-- The files of the resources, if they were written. -/
  files : List Path

namespace BuildOrder

def settings (o : BuildOrder) (surroundings : Surroundings) (files : FileTree) : Settings where
  encoding := encodingOf o.encoding surroundings.encoding
  root := o.sources.getD o.script.parent
  limit := fileLimitOf surroundings.fileLimit
  files
  encoders := surroundings.encoders

def stripEnd (t : Text) : Text :=
  (t.reverse.dropWhile fun
    | .char c => Text.isBlank c
    | .byte _ => false).reverse

def reportEncoded (before : List Resource) : List Resource → Run Unit
  | [] => pure ()
  | x :: rest => do
    Run.ensureShown x.id
    let done := before ++ [x]
    Run.advance "compile.encode" 1
      [("current_item", .str (stripEnd (text s!"#{x.id} " ++ x.name))),
        ("resources", .int done.length), ("bytes", .int (totalBytes done))]
    reportEncoded done rest

def encode (o : BuildOrder) (surroundings : Surroundings) (registry : Registry) (source : String) :
    Run (List Resource) :=
  Run.task "compile.encode" "Encode resources" none [] do
    let compiled := compile (o.settings surroundings (← get).files) registry source
      o.script.render.toString
    compiled.journal.forM Run.note
    let resources ← Run.ofExcept compiled.result
    reportEncoded [] resources
    return resources

def write (resources : List Resource) (directory : Path) : Run (List Path) := do
  let files ← Run.task "compile.write" "Write resources" (some resources.length)
    [("bytes", .int (totalBytes resources))] do
      let files ← Run.writeResources directory resources
      files.forM fun file => Run.advance "compile.write" 1 [("current_item", .str file.name)]
      return files
  Run.status (text s!"Write summary: files={files.length} dir=" ++ directory.render)
  return files

/-- The resources with their files; those that were not written have none. -/
def entries (resources : List Resource) (files : List Path) : List (Resource × Option Path) :=
  resources.zip (files.map some ++ List.replicate (resources.length - files.length) none)

def run (o : BuildOrder) (surroundings : Surroundings) : Run Built := do
  let registry ← Run.ofExcept (loadRegistry (← get).files o.types o.type)
  let type ← Run.ofExcept registry.active
  Run.status (text "Types summary: file=" ++ o.types.name ++
    text s!" type={type.name} code={type.code} fields={type.fields.length}")
  let source ← Run.ofExcept ((← get).files.readText o.script)
  Run.note (text "compiling " ++ o.script.render ++
    text s!" ({source.length} chars) against {type.name}")
  let resources ← o.encode surroundings registry source
  Run.ensureShown resources.length
  Run.ensureShown (totalBytes resources)
  Run.status (text s!"Compile summary: resources={resources.length} bytes={totalBytes resources}")
  let files ← match o.output with
    | some directory => write resources directory
    | none => pure []
  if let some p := o.manifest then
    Run.writeManifest p
      { script := some o.script, type := some type.name, directory := o.output,
        entries := entries resources files }
    Run.status (text "Manifest summary: path=" ++ p.render)
  return { resources, files }

end BuildOrder

end ResourceScript
