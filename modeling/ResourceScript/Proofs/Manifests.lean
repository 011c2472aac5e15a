import ResourceScript.Proofs.JsonRendering
import ResourceScript.Proofs.Locations
import ResourceScript.Run.Build

namespace ResourceScript

namespace Json

end Json

namespace BuildOrder

variable {o : BuildOrder} {resources : List Resource}

/-- Resources that can be told about: their ids, how many they are and how many bytes they have. -/
structure IsTellable (resources : List Resource) : Prop where
  ids : ∀ x ∈ resources, Text.isShown x.id = true
  count : Text.isShown resources.length = true
  bytes : Text.isShown (totalBytes resources) = true

instance : Decidable (IsTellable resources) :=
  decidable_of_iff ((∀ x ∈ resources, Text.isShown x.id = true) ∧
    Text.isShown resources.length = true ∧ Text.isShown (totalBytes resources) = true)
    ⟨fun h => ⟨h.1, h.2.1, h.2.2⟩, fun h => ⟨h.ids, h.count, h.bytes⟩⟩

def entry (o : BuildOrder) (x : Resource) : Json :=
  .obj ([("type", .ofString x.code), ("id", .int x.id), ("name", .str x.name),
    ("size", .int x.data.length), ("sha256", .ofString (Sha256.digest x.data))] ++
    if o.output.isSome then [("file", .str x.file.render)] else [])

end BuildOrder

end ResourceScript
