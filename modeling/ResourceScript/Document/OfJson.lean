import ResourceScript.Document.Basic
import ResourceScript.Json.Basic

namespace ResourceScript.Document

mutual

def ofJson : Json → Document
  | .null => null
  | .bool b => bool b
  | .int n => int n
  | .float x => float x
  | .str t => text t.toString
  | .arr items => list (ofJsonItems items)
  | .obj members => map (ofJsonMembers members)

def ofJsonItems : List Json → List Document
  | [] => []
  | item :: items => ofJson item :: ofJsonItems items

def ofJsonMembers : List (String × Json) → List (Document × Document)
  | [] => []
  | (key, value) :: members => (text key, ofJson value) :: ofJsonMembers members

end

end ResourceScript.Document
