import Mathlib.Data.List.DropRight
import ResourceScript.Proofs.Scans
import ResourceScript.Proofs.Scripts

namespace ResourceScript

variable {settings : Settings} {r : Registry} {t : TypeTemplate} {source : String}
  {path : Option String} {cause : Problem} {place : Option Position} {p : Position}
  {cs ds : List Char} {tokens ts : List Token} {token : Token}

/-- The offset at which the line of an offset starts: behind the last line end before it. -/
def lineStart (cs : List Char) (offset : Nat) : Nat :=
  ((cs.take offset).rdropWhile (· != '\n')).length

/-- A position that tells where its offset is in a script. -/
structure Position.PointsInto (p : Position) (source : String) (path : Option String) : Prop where
  path_eq : p.path = path
  offset_le : p.offset ≤ source.length
  line_eq : p.line = 1 + (source.toList.take p.offset).count '\n'
  column_eq : (p.column : Int) = p.offset - lineStart source.toList p.offset + 1

theorem lineStart_append (cs ds : List Char) :
    lineStart (cs ++ ds) cs.length = (cs.rdropWhile (· != '\n')).length := by
  rw [lineStart, List.take_left]

namespace Position

theorem path_after (p : Position) (cs : List Char) : (p.after cs).path = p.path := by
  induction cs generalizing p with
  | nil => rfl
  | cons c cs ih =>
    rw [after_cons, ih, next]
    split <;> rfl

theorem offset_after (p : Position) (cs : List Char) :
    (p.after cs).offset = p.offset + cs.length := by
  induction cs generalizing p with
  | nil => rfl
  | cons c cs ih =>
    have hnext : (p.next c).offset = p.offset + 1 := by
      rw [next]
      split <;> rfl
    rw [after_cons, ih, hnext, List.length_cons]
    omega

theorem line_after (p : Position) (cs : List Char) :
    (p.after cs).line = p.line + cs.count '\n' := by
  induction cs generalizing p with
  | nil => rfl
  | cons c cs ih =>
    rw [after_cons, ih, next, List.count_cons]
    by_cases hc : c = '\n'
    · simp only [hc, if_true, beq_self_eq_true]
      omega
    · simp [hc]

theorem column_after (path : Option String) (cs : List Char) :
    (((start path).after cs).column : Int) =
      cs.length - (cs.rdropWhile (· != '\n')).length + 1 := by
  induction cs using List.reverseRecOn with
  | nil => rfl
  | append_singleton cs c ih =>
    rw [after_append, after_cons, after_nil, next, List.length_append]
    by_cases hc : c = '\n'
    · have hdrop : (cs ++ [c]).rdropWhile (· != '\n') = cs ++ [c] :=
        List.rdropWhile_concat_neg _ _ _ (by simp [hc])
      rw [hdrop]
      simp [hc]
    · have hdrop : (cs ++ [c]).rdropWhile (· != '\n') = cs.rdropWhile (· != '\n') :=
        List.rdropWhile_concat_pos _ _ _ (by simp [hc])
      simp only [hc, if_false, Int.natCast_add, ih, hdrop, List.length_singleton]
      omega

theorem offset_after_start (path : Option String) (cs : List Char) :
    ((start path).after cs).offset = cs.length := by
  rw [offset_after, start, Nat.zero_add]

theorem pointsInto_after (hs : source.toList = cs ++ ds) :
    ((start path).after cs).PointsInto source path := by
  have hoffset := offset_after_start path cs
  constructor
  · exact path_after _ cs
  · rw [hoffset, ← String.length_toList, hs, List.length_append]
    exact Nat.le_add_right _ _
  · rw [hoffset, hs, List.take_left]
    exact line_after _ cs
  · rw [hoffset, hs, lineStart_append]
    exact column_after path cs

end Position

theorem exists_place_of_tokenize (h : tokenize source path = .ok tokens) (ht : token ∈ tokens) :
    ∃ cs ds, source.toList = cs ++ ds ∧ token.position = (Position.start path).after cs := by
  obtain ⟨ts, hts, rfl⟩ := scans_of_tokenizeFrom h
  rcases List.mem_append.mp ht with ht | ht
  · obtain ⟨ds, c, es, ts₁, ts₂, hsource, -, -, -, hplace, -⟩ := hts.exists_split ht
    exact ⟨ds, c :: es, hsource, hplace⟩
  · rw [List.mem_singleton.mp ht]
    exact ⟨source.toList, [], by simp, rfl⟩

/-- A script of two declarations, the first of which gives a number that its entry does not hold. -/
def Sample.script : String :=
  "new () \x7b rank = 70000; \x7d new (#200) \x7b label = \"none\"; \x7d"

end ResourceScript
