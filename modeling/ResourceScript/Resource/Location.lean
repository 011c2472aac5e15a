import ResourceScript.Files.Path
import ResourceScript.Resource.Draft

namespace ResourceScript

def isPlainSign (c : Char) : Bool :=
  c.isAlphanum || c == '_' || c == '.' || c == '-'

def codeDirectory (code : String) : String :=
  let signs := code.toList.map fun c => if isPlainSign c then c else '_'
  if signs.isEmpty then "_" else String.ofList signs

/-- The file for a resource, as seen from the directory that holds the files of all. -/
def resourceFile (code : String) (id : Int) : Path :=
  (Path.ofString (codeDirectory code)).join (.ofString s!"{id}.bin")

def Resource.file (x : Resource) : Path :=
  resourceFile x.code x.id

end ResourceScript
