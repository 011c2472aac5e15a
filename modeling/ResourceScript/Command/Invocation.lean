import ResourceScript.Command.Words
import ResourceScript.Run.Build

namespace ResourceScript

inductive ReportChoice where
  | plain
  | rich
  | records
  | silent
  deriving DecidableEq, Repr

inductive Command where
  | build (order : BuildOrder) (json : Bool)
  /-- Looks into an encoded resource. -/
  | inspect (resource types : Path) (type : Option String) (json : Bool)
  /-- Lists the types of a template file. -/
  | list (types : Path) (json : Bool)

structure Invocation where
  report : ReportChoice
  verbosity : Nat
  command : Command

namespace Invocation

def jsonSwitch : Switch where
  key := "json"
  names := ["--json"]

def typeSwitch : Switch where
  key := "type"
  names := ["--type"]
  valued := true

def typesSwitch : Switch where
  key := "types"
  names := ["-t", "--types"]
  valued := true
  required := true

def mainForm : CommandForm where
  switches :=
    [{ key := "verbose", names := ["-v", "--verbose"] },
      { key := "reporter", names := ["-r", "--reporter"], valued := true,
        choices := ["plain", "rich", "json", "silent"] }]
  commands := ["build", "inspect", "types"]

def buildForm : CommandForm where
  switches :=
    [typesSwitch, typeSwitch, { key := "sources", names := ["--source-root"], valued := true },
      { key := "output", names := ["-o", "--output"], valued := true },
      { key := "manifest", names := ["--emit-manifest"], valued := true },
      { key := "encoding", names := ["--encoding"], valued := true }, jsonSwitch]

def inspectForm : CommandForm where
  switches := [typesSwitch, typeSwitch, jsonSwitch]

def typesForm : CommandForm where
  switches := [jsonSwitch]

def choiceOf (name : Option String) : ReportChoice :=
  match name with
  | some "rich" => .rich
  | some "json" => .records
  | some "silent" => .silent
  | _ => .plain

def commandForm (name : String) : CommandForm :=
  match name with
  | "build" => buildForm
  | "inspect" => inspectForm
  | _ => typesForm

def commandOf (name : String) (r : Request) : Command :=
  let operand := Path.ofString (r.operand.getD "")
  let path? (key : String) : Option Path := (r.value? key).map .ofString
  let types := (path? "types").getD .here
  let json := r.has "json"
  match name with
  | "build" =>
    .build
      { script := operand, types, type := r.value? "type", sources := path? "sources",
        output := path? "output", manifest := path? "manifest", encoding := r.value? "encoding" }
      json
  | "inspect" => .inspect operand types (r.value? "type") json
  | _ => .list operand json

def ofWords (words : List String) : Except Refusal Invocation := do
  let all ← Request.ofWords mainForm words
  let name := all.operand.getD ""
  let own ← Request.ofWords (commandForm name) all.rest
  if all.excess ∨ own.excess then throw .misuse
  return {
    report := choiceOf (all.value? "reporter")
    verbosity := all.count "verbose"
    command := commandOf name own }

end Invocation

end ResourceScript
