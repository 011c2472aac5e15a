import Mathlib.Data.List.Basic
import ResourceScript.Files.Tree
import ResourceScript.Proofs.Outcome

namespace ResourceScript

/-- The place that a name leads to from another place. -/
def Place.below (place : Place) (name : Bytes) : Place :=
  if name = Path.parentPart.utf8 then place.dropLast else place ++ [name]

def Path.place (p : Path) (working : List Text) : Place :=
  (p.parts.map Text.utf8).foldl Place.below
    (if p.anchor = .relative then working.map Text.utf8 else [])

/-- What a tree may have become where files are written at no other places than those in `touched`.
-/
structure FileTree.Grows (touched : Place → Prop) (t t' : FileTree) : Prop where
  working : t'.working = t.working
  directories : t.node? place = some .directory → t'.node? place = some .directory
  files : ¬touched place →
    (t'.node? place = some (.file data) ↔ t.node? place = some (.file data))

namespace FileTree

variable {t t' t'' : FileTree} {place : Place} {names : List Bytes} {p : Path} {data : Bytes}
  {node : FileNode} {touched touched' : Place → Prop}

theorem lookup_setNode (place place' : Place) (node : FileNode) (nodes : List (Place × FileNode)) :
    (setNode place node nodes).lookup place' =
      if place' = place then some node else nodes.lookup place' := by
  induction nodes with
  | nil =>
    rw [setNode, List.lookup_cons, List.lookup_nil]
    by_cases h : place' = place
    · simp [h]
    · simp [h, beq_eq_false_iff_ne.mpr h]
  | cons entry nodes ih =>
    obtain ⟨q, n⟩ := entry
    rw [setNode]
    by_cases hq : q = place
    · subst hq
      rw [if_pos rfl, List.lookup_cons, List.lookup_cons]
      by_cases h : place' = q
      · simp [h]
      · simp [h, beq_eq_false_iff_ne.mpr h]
    · rw [if_neg hq, List.lookup_cons, List.lookup_cons, ih]
      by_cases h : place' = q
      · simp [h, hq]
      · simp [beq_eq_false_iff_ne.mpr h]

theorem node?_set (hplace : place ≠ []) (place' : Place) :
    (t.set place node).node? place' = if place' = place then some node else t.node? place' := by
  unfold node? set
  simp only [List.isEmpty_iff, lookup_setNode]
  by_cases h : place' = []
  · rw [if_pos h, if_pos h, if_neg (by rw [h]; exact hplace.symm)]
  · rw [if_neg h, if_neg h]

theorem walk_eq (h : t.walk place names = .ok place') : place' = names.foldl Place.below place := by
  induction names generalizing place with
  | nil =>
    cases h
    rfl
  | cons name names ih =>
    rw [walk] at h
    rw [List.foldl_cons, Place.below]
    split at h
    · cases h
    · cases h
    · split at h
      case isTrue hname =>
        rw [if_pos hname]
        exact ih h
      case isFalse hname =>
        rw [if_neg hname]
        split at h
        · cases h
        · exact ih h

theorem locate_eq (h : t.locate p = .ok place) : place = p.place t.working := by
  unfold locate at h
  split at h
  · cases h
  · split at h
    · cases h
    · exact walk_eq h

namespace Grows

theorem refl (t : FileTree) : t.Grows touched t :=
  ⟨rfl, id, fun _ => .rfl⟩

theorem trans (h : Grows touched t t') (h' : Grows touched t' t'') : Grows touched t t'' where
  working := h'.working.trans h.working
  directories hd := h'.directories (h.directories hd)
  files hn := (h'.files hn).trans (h.files hn)

theorem mono (h : Grows touched t t') (hsub : ∀ place, touched place → touched' place) :
    Grows touched' t t' where
  working := h.working
  directories := h.directories
  files hn := h.files fun hp => hn (hsub _ hp)

theorem walk (h : Grows touched t t') (hwalk : t.walk place names = .ok place') :
    t'.walk place names = .ok place' := by
  induction names generalizing place with
  | nil => exact hwalk
  | cons name names ih =>
    rw [FileTree.walk] at hwalk ⊢
    cases hnode : t.node? place with
    | none =>
      rw [hnode] at hwalk
      cases hwalk
    | some node =>
      cases node with
      | file data =>
        rw [hnode] at hwalk
        cases hwalk
      | directory =>
        rw [hnode] at hwalk
        rw [h.directories hnode]
        simp only at hwalk ⊢
        split at hwalk
        case isTrue hname =>
          rw [if_pos hname]
          exact ih hwalk
        case isFalse hname =>
          rw [if_neg hname]
          split at hwalk
          · cases hwalk
          case isFalse hlength =>
            rw [if_neg hlength]
            exact ih hwalk

theorem locate (h : Grows touched t t') (hp : t.locate p = .ok place) :
    t'.locate p = .ok place := by
  unfold FileTree.locate at hp ⊢
  rw [h.working]
  split at hp
  · cases hp
  case isFalse hzero =>
    rw [if_neg hzero]
    split at hp
    · cases hp
    case isFalse hlength =>
      rw [if_neg hlength]
      exact h.walk hp

end Grows

theorem read_eq_ok : t.read p = .ok data ↔
    ∃ place, t.locate p = .ok place ∧ t.node? place = some (.file data) := by
  constructor
  · intro h
    obtain ⟨node, hstat, h⟩ := Except.bind_eq_ok.mp h
    obtain ⟨place, hplace, hstat⟩ := Except.bind_eq_ok.mp hstat
    refine ⟨place, hplace, ?_⟩
    split at hstat
    case h_1 hnode =>
      cases hstat
      cases node with
      | file data' =>
        cases h
        exact hnode
      | directory => cases h
    · cases hstat
  · rintro ⟨place, hplace, hnode⟩
    simp [read, stat, hplace, hnode, bind, Except.bind, pure, Except.pure]

theorem Grows.read (h : Grows touched t t') (hn : ¬touched (p.place t.working))
    (hread : t.read p = .ok data) : t'.read p = .ok data := by
  obtain ⟨place, hplace, hnode⟩ := read_eq_ok.mp hread
  have heq := locate_eq hplace
  subst heq
  exact read_eq_ok.mpr ⟨_, h.locate hplace, (h.files hn).mpr hnode⟩

theorem grows_set_file (hnode : t.node? place ≠ some .directory) (data : Bytes) :
    Grows (· = place) t (t.set place (.file data)) := by
  have hplace : place ≠ [] := by
    rintro rfl
    exact hnode rfl
  refine ⟨rfl, ?_, ?_⟩
  · intro place' hd
    rw [node?_set hplace, if_neg]
    · exact hd
    · rintro rfl
      exact hnode hd
  · intro place' data' hn
    rw [node?_set hplace, if_neg hn]

theorem grows_set_directory (hnode : t.node? place = none) :
    Grows (fun _ => False) t (t.set place .directory) := by
  have hplace : place ≠ [] := by
    rintro rfl
    cases hnode
  refine ⟨rfl, ?_, ?_⟩
  · intro place' hd
    rw [node?_set hplace]
    split
    · rfl
    · exact hd
  · intro place' data _
    rw [node?_set hplace]
    split
    case isTrue h => simp [h, hnode]
    case isFalse => exact .rfl

theorem grows_write (h : t.write p data = .ok t') :
    Grows (· = p.place t.working) t t' ∧ t'.read p = .ok data := by
  obtain ⟨place, hplace, h⟩ := Except.bind_eq_ok.mp h
  have heq := locate_eq hplace
  subst heq
  split at h
  · cases h
  case h_2 hnode =>
    cases h
    have hgrows := grows_set_file (fun hd => hnode hd) data
    refine ⟨hgrows, read_eq_ok.mpr ⟨_, hgrows.locate hplace, ?_⟩⟩
    rw [node?_set, if_pos rfl]
    intro hroot
    rw [hroot] at hnode
    exact hnode rfl

theorem grows_makeDirectory (h : t.makeDirectory p = .ok t') : Grows (fun _ => False) t t' := by
  obtain ⟨place, -, h⟩ := Except.bind_eq_ok.mp h
  split at h
  · cases h
  case isFalse hnode =>
    cases h
    exact grows_set_directory (by simpa using hnode)

theorem grows_ensureDirectory (t : FileTree) (p : Path) :
    Grows (fun _ => False) t (t.ensureDirectory p).1 := by
  unfold ensureDirectory
  split
  case h_1 h => exact grows_makeDirectory h
  case h_2 => exact .refl t

theorem grows_ensureDirectories (t : FileTree) (p : Path) :
    Grows (fun _ => False) t (t.ensureDirectories p).1 := by
  fun_induction ensureDirectories t p with
  | case1 t p t₁ hmissing hparts =>
    have h := grows_ensureDirectory t p
    rwa [hmissing] at h
  | case2 t p t₁ hmissing hparts t₂ hparent ih =>
    have h := grows_ensureDirectory t p
    rw [hmissing] at h
    rw [hparent] at ih
    exact (h.trans ih).trans (grows_ensureDirectory t₂ p)
  | case3 t p t₁ hmissing hparts t₂ e hparent ih =>
    have h := grows_ensureDirectory t p
    rw [hmissing] at h
    rw [hparent] at ih
    exact h.trans ih
  | case4 t p => exact grows_ensureDirectory t p

end FileTree

end ResourceScript
