import ResourceScript.Failure
import ResourceScript.Text.Class

namespace ResourceScript

def Position.toJson (p : Position) : Json :=
  .obj [("path", .ofOption .ofString p.path), ("line", .int p.line), ("column", .int p.column),
    ("offset", .int p.offset)]

structure Diagnostic where
  code : String
  message : Text
  context : List (String × Json)
  position : Option Position

namespace Diagnostic

def ofProblem (cause : Problem) (position : Option Position) : Diagnostic where
  code := cause.code
  message := cause.message
  context := cause.context
  position

def headline (d : Diagnostic) : Text :=
  let place := match d.position with
    | none => []
    | some p => p.render ++ text ": "
  place ++ text d.code ++ text ": " ++ d.message

def margin : Text :=
  Text.spaces 4

/-- A line of the script as it is shown. A tab takes the room of one character. -/
def shownLine (line : List Char) : Text :=
  .ofChars (line.map fun c => if c = '\t' then ' ' else c)

/-- The line at a place of the script and below it a mark at the column. Empty where the script has
no such line. -/
def excerpt (p : Position) (source : String) : List Text :=
  match p.line with
  | 0 => []
  | above + 1 =>
    match (Text.lines source.toList)[above]? with
    | none => []
    | some line => [margin ++ shownLine line, margin ++ Text.spaces (p.column - 1) ++ text "^"]

/-- The lines that show a diagnostic, with the excerpt of the script if that is at hand. -/
def lines (d : Diagnostic) (source : Option String) : List Text :=
  d.headline ::
    match d.position, source with
    | some p, some source => excerpt p source
    | _, _ => []

def toMembers (d : Diagnostic) : List (String × Json) :=
  [("code", .ofString d.code), ("message", .str d.message), ("context", .obj d.context),
    ("position", .ofOption Position.toJson d.position)]

end Diagnostic

end ResourceScript
