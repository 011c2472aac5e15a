import Mathlib.Data.List.TakeWhile
import ResourceScript.Text.Class

namespace ResourceScript

namespace Text

variable {isEnd : Char → Bool} {c : Char} {cs us vs : List Char} {n : Nat}

def HasPlainLines (cs : List Char) : Prop :=
  ∀ c ∈ cs, isLineEnd c = true → c = '\n'

instance (cs : List Char) : Decidable (HasPlainLines cs) :=
  List.decidableBAll (fun c => isLineEnd c = true → c = '\n') cs

theorem HasPlainLines.count_eq (h : HasPlainLines cs) : cs.count '\n' = cs.countP isLineEnd := by
  apply List.countP_congr
  intro c hc
  constructor
  · intro hn
    rw [beq_iff_eq.mp hn]
    decide
  · intro hend
    exact beq_iff_eq.mpr (h c hc hend)

end Text

end ResourceScript
