import ResourceScript.Command.Invocation
import ResourceScript.Resource.Inspection

namespace ResourceScript

def FieldTemplate.tagName (f : FieldTemplate) : Option String :=
  f.tag.map fun g => if g.isReference then "Reference" else g.name

namespace FieldTemplate

def listing (f : FieldTemplate) : Json :=
  .obj [("directive", .ofOption .ofString f.tagName),
    ("values", .arr (f.slots.map fun s => .ofString s.name))]

end FieldTemplate

namespace TypeTemplate

def title (t : TypeTemplate) : String :=
  s!"{t.name} ({t.code})"

def listing (t : TypeTemplate) : Json :=
  .obj [("name", .ofString t.name), ("code", .ofString t.code),
    ("template", .arr (t.entries.map fun e =>
      .obj [("name", .ofString e.name), ("type", .ofString e.type.name)])),
    ("fields", .obj (t.fields.map fun f => (f.name, f.listing)))]

end TypeTemplate

def Resource.listing (x : Resource) : Json :=
  .obj [("id", .int x.id), ("name", .str x.name), ("type", .ofString x.code),
    ("data", .ofString (Text.hexOfBytes x.data))]

namespace DecodedEntry

/-- The entry on a line: its offset at the end of six places, its name and its value. -/
def line (e : DecodedEntry) : Text :=
  let offset := Text.ofNat e.offset
  Text.spaces (6 - offset.length) ++ offset ++ text s!"  {e.name} = " ++ e.value.toJson.display

end DecodedEntry

namespace Command

def heading (title : String) : Run Unit :=
  Run.report (.heading title)

def printJson (j : Json) : Run Unit :=
  Run.print (text j.pretty)

/-- Reports what is found in an encoded resource. The status tells whether anything is odd. -/
def runInspect (resource types : Path) (type : Option String) (json : Bool) : Run Nat := do
  let registry ← Run.ofExcept (loadRegistry (← get).files types type)
  let type ← Run.ofExcept registry.active
  let data ← Run.ofExcept (((← get).files.read resource).mapError fun e =>
    .fault (e.fault resource))
  let found := type.inspect data
  heading type.title
  found.entries.forM fun e => Run.status e.line
  found.issues.forM fun issue => Run.report (.message .warning issue [])
  Run.status (text s!"Inspect summary: size={found.size} issues={found.issues.length}")
  if json then
    let issues : Json := .arr (found.issues.map .str)
    printJson (Json.obj (found.members ++ [("issues", issues)])).sortKeys
  return if found.issues.isEmpty then 0 else 1

def reportField (f : FieldTemplate) : Run Unit :=
  let tag := match f.tagName with
    | none => "-"
    | some tag => if tag.isEmpty then "-" else tag
  Run.status (text (s!"{f.name}: {tag} " ++ ", ".intercalate (f.slots.map (·.name))))

def runList (types : Path) (json : Bool) : Run Nat := do
  let all ← Run.ofExcept (loadTypes (← get).files types)
  if json then printJson (Json.arr (all.map TypeTemplate.listing)).sortKeys
  else
    all.forM fun t => do
      heading t.title
      t.fields.forM reportField
  return 0

def runBuild (order : BuildOrder) (surroundings : Surroundings) (json : Bool) : Run Nat := do
  let built ← order.run surroundings
  if json then printJson (.arr (built.resources.map Resource.listing))
  return 0

def run (surroundings : Surroundings) : Command → Run Nat
  | build order json => runBuild order surroundings json
  | inspect resource types type json => runInspect resource types type json
  | list types json => runList types json

end Command

/-- The script that a problem is in. None, if the problem has no place or the file cannot be
opened. -/
def Run.sourceOf (position : Option Position) : Run (Option String) := do
  match position.bind (·.path) with
  | none | some "" => return none
  | some path =>
    match (← get).files.readText (.ofString path) with
    | .ok source => return some source
    | .error (.fault (.missingFile _)) | .error (.fault .fileExists)
    | .error (.fault .fileSystem) => return none
    | .error failure => throw failure

namespace Invocation

/-- The style of the report. Rich reports go to terminals only, whose width is given if there is
one. -/
def style (i : Invocation) (terminal : Option Nat) : Style :=
  match i.report, terminal with
  | .records, _ => .records
  | .silent, _ => .silent
  | .rich, some width => .console width
  | _, _ => .plain terminal.isSome

/-- Reports a problem or a missing file and gives the status of a command that failed. -/
def settle : Failure → Run Nat
  | .problem cause position => do
    let source ← Run.sourceOf position
    Run.report (.diagnostic (.ofProblem cause position) source)
    return 1
  | .fault (.missingFile path) => do
    Run.report (.message .error (text "File not found: " ++ path) [])
    return 1
  | failure => throw failure

def run (i : Invocation) (surroundings : Surroundings) : Run Nat := do
  Run.reporting do
    let _ ← Reporter.setVerbosity i.verbosity
    Reporter.setLogging i.verbosity
  let status ← tryCatch (tryCatch (i.command.run surroundings) settle) fun failure => do
    Run.report .flush
    throw failure
  Run.report .flush
  return status

end Invocation

end ResourceScript
