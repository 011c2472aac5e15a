import ResourceScript.Failure
import ResourceScript.Text.Class

namespace ResourceScript

def decodeText (b : Bytes) : Except Fault String :=
  match String.fromUTF8? ⟨b.toArray⟩ with
  | some s => .ok (String.ofList (Text.unifyNewlines s.toList))
  | none => .error .undecodable

end ResourceScript
