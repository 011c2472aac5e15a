import Mathlib.Data.List.Induction
import ResourceScript.Proofs.Grammar

namespace ResourceScript

theorem of_mem_splitOnP {p : α → Bool} {xs part : List α} (h : part ∈ xs.splitOnP p) :
    ∀ x ∈ part, x ∈ xs ∧ p x = false := by
  induction xs generalizing part with
  | nil =>
    rw [List.splitOnP_nil, List.mem_singleton] at h
    rw [h]
    exact List.forall_mem_nil _
  | cons y ys ih =>
    have hrest : ∀ part ∈ ys.splitOnP p, ∀ x ∈ part, x ∈ y :: ys ∧ p x = false := by
      intro part hpart x hx
      exact (ih hpart x hx).imp_left (List.mem_cons_of_mem y)
    rw [List.splitOnP_cons_eq_if_modifyHead] at h
    split at h
    case isTrue =>
      rcases List.mem_cons.mp h with rfl | h
      · exact List.forall_mem_nil _
      · exact hrest part h
    case isFalse hy =>
      cases hparts : ys.splitOnP p with
      | nil => exact absurd hparts (List.splitOnP_ne_nil p ys)
      | cons first parts =>
        rw [hparts, List.forall_mem_cons] at hrest
        rw [hparts, List.modifyHead_cons] at h
        rcases List.mem_cons.mp h with rfl | h
        · rw [List.forall_mem_cons]
          exact ⟨⟨List.mem_cons_self, Bool.eq_false_iff.mpr hy⟩, hrest.1⟩
        · exact hrest.2 part h

namespace Text

def components (t : Text) : List Text :=
  t.splitOnP (· == Path.slash)

abbrev IsAbsolute (t : Text) : Prop :=
  t.head? = some Path.slash

/-- The components to follow for a path that is seen from a directory. -/
def componentsFrom (directory t : Text) : List Text :=
  if t.IsAbsolute then t.components else directory.components ++ t.components

end Text

namespace Path

/-- The names from the root on that components lead to. Above the root there is nothing to go up to.
-/
def follow (names : List Text) : List Text → List Text
  | [] => names
  | c :: cs =>
    if c = [] ∨ c = point then follow names cs
    else if c = parentPart then follow names.dropLast cs
    else follow (names ++ [c]) cs

/-- A component that names what stands in a directory. -/
structure IsName (c : Text) : Prop where
  ne_nil : c ≠ []
  ne_point : c ≠ point
  ne_parent : c ≠ parentPart

variable {names cs ds parts : List Text} {c t root name : Text} {g : Glyph}

theorem follow_append (names cs ds : List Text) :
    follow names (cs ++ ds) = follow (follow names cs) ds := by
  induction cs generalizing names with
  | nil => rfl
  | cons c cs ih =>
    rw [List.cons_append, follow, follow]
    split
    · exact ih names
    · split
      · exact ih names.dropLast
      · exact ih (names ++ [c])

theorem isName_of_mem_follow (h : ∀ n ∈ names, IsName n) : ∀ n ∈ follow names cs, IsName n := by
  induction cs generalizing names with
  | nil => exact h
  | cons c cs ih =>
    rw [follow]
    split
    case isTrue => exact ih h
    case isFalse hblank =>
      split
      case isTrue => exact ih fun n hn => h n (List.dropLast_subset names hn)
      case isFalse hparent =>
        rw [not_or] at hblank
        have hc : IsName c := ⟨hblank.1, hblank.2, hparent⟩
        apply ih
        intro n hn
        rcases List.mem_append.mp hn with hn | hn
        · exact h n hn
        · rwa [List.mem_singleton.mp hn]

theorem mem_of_mem_follow (h : c ∈ follow names cs) : c ∈ names ∨ c ∈ cs := by
  induction cs generalizing names with
  | nil => exact .inl h
  | cons d cs ih =>
    rw [follow] at h
    split at h
    · exact (ih h).imp_right (List.mem_cons_of_mem d)
    · split at h
      · exact (ih h).imp (fun hc => List.dropLast_subset names hc) (List.mem_cons_of_mem d)
      · rcases ih h with hc | hc
        · rcases List.mem_append.mp hc with hc | hc
          · exact .inl hc
          · exact .inr (List.mem_singleton.mp hc ▸ List.mem_cons_self)
        · exact .inr (List.mem_cons_of_mem d hc)

theorem foldl_filter_eq_follow (names cs : List Text) :
    (cs.filter fun p => !p.isEmpty && p != point).foldl
      (fun above p => if p = parentPart then above.dropLast else above ++ [p]) names =
      follow names cs := by
  induction cs generalizing names with
  | nil => rfl
  | cons c cs ih =>
    rw [follow, List.filter_cons]
    by_cases hc : c = [] ∨ c = point
    · have hkeep : (!c.isEmpty && c != point) = false := by
        rcases hc with rfl | rfl <;> rfl
      rw [if_pos hc, hkeep]
      exact ih names
    · have hkeep : (!c.isEmpty && c != point) = true := by
        rw [not_or] at hc
        simp [hc.1, hc.2]
      rw [if_neg hc, hkeep, if_pos rfl, List.foldl_cons]
      split
      · exact ih names.dropLast
      · exact ih (names ++ [c])

theorem normalize_partsOf (t : Text) : normalize (partsOf t) = follow [] t.components :=
  foldl_filter_eq_follow [] t.components

theorem normalize_append_of_isName (names : List Text) (h : ∀ p ∈ parts, IsName p) :
    normalize (names ++ parts) = normalize names ++ parts := by
  induction parts using List.reverseRecOn with
  | nil => rw [List.append_nil, List.append_nil]
  | append_singleton parts p ih =>
    have hp : IsName p := h p (by simp)
    have hparts := ih fun q hq => h q (List.mem_append_left [p] hq)
    rw [← List.append_assoc, normalize, List.foldl_append, ← normalize, hparts, List.foldl_cons,
      if_neg hp.ne_parent, List.foldl_nil, List.append_assoc]

theorem normalize_of_isName (h : ∀ p ∈ parts, IsName p) : normalize parts = parts :=
  normalize_append_of_isName [] h

theorem normalize_append_partsOf (cs : List Text) (t : Text) :
    normalize (follow [] cs ++ partsOf t) = follow [] (cs ++ t.components) := by
  have hnames : ∀ n ∈ follow [] cs, IsName n := isName_of_mem_follow (List.forall_mem_nil _)
  rw [follow_append, normalize, List.foldl_append, ← normalize, normalize_of_isName hnames]
  exact foldl_filter_eq_follow _ _

theorem mem_of_mem_component (hc : c ∈ t.components) (hg : g ∈ c) : g ∈ t :=
  (of_mem_splitOnP hc g hg).1

theorem anchorOf_eq_relative_iff : anchorOf t = .relative ↔ ¬t.IsAbsolute := by
  rcases t with _ | ⟨g, t⟩
  · simp [anchorOf, Text.IsAbsolute]
  · by_cases hg : g = slash
    · subst hg
      have hanchor : anchorOf (slash :: t) ≠ .relative := by
        unfold anchorOf slash
        split <;> simp_all
      have habsolute : Text.IsAbsolute (slash :: t) := rfl
      simp [hanchor, habsolute]
    · have hanchor : anchorOf (g :: t) = .relative := by
        unfold anchorOf
        split <;> simp_all [slash]
      have hrelative : ¬Text.IsAbsolute (g :: t) := fun h => hg (Option.some.inj h)
      simp [hanchor, hrelative]

theorem hasZero_eq_false {p : Path} (h : ∀ c ∈ p.parts, .char (Char.ofNat 0) ∉ c) :
    p.hasZero = false := by
  rw [hasZero, List.any_eq_false]
  intro c hc
  simpa using h c hc

theorem zero_not_mem_parts (hzero : .char (Char.ofNat 0) ∉ t) :
    ∀ c ∈ partsOf t, .char (Char.ofNat 0) ∉ c := by
  intro c hc hz
  exact hzero (mem_of_mem_component (List.mem_filter.mp hc).1 hz)

theorem resolve_ofText (hroot : root.IsAbsolute) (working : List Text) :
    (Path.ofText root).resolve working = ⟨.root, follow [] root.components⟩ := by
  have hanchor : (Path.ofText root).anchor ≠ .relative := fun h =>
    anchorOf_eq_relative_iff.mp h hroot
  rw [resolve, if_neg hanchor]
  exact congrArg (Path.mk .root) (normalize_partsOf root)

theorem resolve_join (root name : Text) (working : List Text) :
    ((Path.mk .root (follow [] root.components)).join (.ofText name)).resolve working =
      ⟨.root, follow [] (root.componentsFrom name)⟩ := by
  rw [join, Text.componentsFrom]
  by_cases hname : name.IsAbsolute
  · have hanchor : (Path.ofText name).anchor ≠ .relative := fun h =>
      anchorOf_eq_relative_iff.mp h hname
    rw [if_neg hanchor, if_pos hname]
    exact resolve_ofText hname working
  · have hanchor : (Path.ofText name).anchor = .relative := anchorOf_eq_relative_iff.mpr hname
    rw [if_pos hanchor, if_neg hname, resolve, if_neg nofun]
    exact congrArg (Path.mk .root) (normalize_append_partsOf root.components name)

theorem hasZero_join (hroot : .char (Char.ofNat 0) ∉ root) (hname : .char (Char.ofNat 0) ∉ name) :
    ((Path.mk .root (follow [] root.components)).join (.ofText name)).hasZero = false := by
  apply hasZero_eq_false
  intro c hc hz
  rw [join] at hc
  split at hc
  · rcases List.mem_append.mp hc with hc | hc
    · rcases mem_of_mem_follow hc with hc | hc
      · cases hc
      · exact hroot (mem_of_mem_component hc hz)
    · exact zero_not_mem_parts hname c hc hz
  · exact zero_not_mem_parts hname c hc hz

end Path

open ResourceScript.Path

variable {root name : Text}

theorem sourcePath_eq (hroot : root.IsAbsolute) (hzero : .char (Char.ofNat 0) ∉ root ++ name)
    (working : List Text) :
    sourcePath working (.ofText root) name =
      if follow [] root.components <+: follow [] (root.componentsFrom name) then
        .ok ⟨.root, follow [] (root.componentsFrom name)⟩
      else .error (Problem.pathEscape name (Path.ofText root).render).anywhere := by
  rw [List.mem_append, not_or] at hzero
  obtain ⟨hzroot, hzname⟩ := hzero
  have hbare : (Path.ofText root).hasZero = false := hasZero_eq_false (zero_not_mem_parts hzroot)
  rw [sourcePath]
  simp only [resolve_ofText hroot, resolve_join, hasZero_join hzroot hzname, hbare, Bool.false_or,
    Bool.not_eq_true']
  by_cases hbelow : follow [] root.components <+: follow [] (root.componentsFrom name)
  · have hprefix := List.isPrefixOf_iff_prefix.mpr hbelow
    rw [if_pos hbelow, hprefix]
    rfl
  · have hprefix : (follow [] root.components).isPrefixOf (follow [] (root.componentsFrom name)) =
        false := by
      rwa [Bool.eq_false_iff, ne_eq, List.isPrefixOf_iff_prefix]
    rw [if_neg hbelow, hprefix]
    rfl

theorem exists_stat_of_import? {settings : Settings} {data : Bytes}
    (h : settings.import? name = some data) :
    ∃ path, sourcePath settings.files.working settings.root name = .ok path ∧
      settings.files.stat path = .ok (.file data) := by
  rw [Settings.import?] at h
  cases hpath : sourcePath settings.files.working settings.root name with
  | error e =>
    rw [hpath] at h
    cases h
  | ok path =>
    refine ⟨path, rfl, ?_⟩
    rw [hpath] at h
    simp only [FileTree.readWithin] at h
    split at h
    case h_1 contents hstat =>
      split at h
      · cases h
      · rw [hstat, Option.some.inj h]
    case h_2 => cases h
    case h_3 => cases h

/-- Following a path from the root of the file system tells whether it may be imported: it is taken,
without its detours, if it ends below the root of the sources, and it escapes if it does not. So
what is imported is always a file below the root. -/
theorem sourcePath_contained (hroot : root.IsAbsolute)
    (hzero : .char (Char.ofNat 0) ∉ root ++ name) (working : List Text) :
    let directory := follow [] root.components
    let place := follow [] (root.componentsFrom name)
    (directory <+: place → sourcePath working (.ofText root) name = .ok ⟨.root, place⟩) ∧
      (¬directory <+: place → ∃ cause : Problem, cause.code = "E_PATH_ESCAPE" ∧
        sourcePath working (.ofText root) name = .error cause.anywhere) ∧
      ∀ (settings : Settings) (data : Bytes), settings.root = .ofText root →
        settings.import? name = some data →
        directory <+: place ∧ settings.files.stat ⟨.root, place⟩ = .ok (.file data) := by
  intro directory place
  refine ⟨?_, ?_, ?_⟩
  · intro hbelow
    rw [sourcePath_eq hroot hzero, if_pos hbelow]
  · intro hbelow
    refine ⟨.pathEscape name (Path.ofText root).render, rfl, ?_⟩
    rw [sourcePath_eq hroot hzero, if_neg hbelow]
  · intro settings data hsettings himport
    obtain ⟨path, hpath, hstat⟩ := exists_stat_of_import? himport
    rw [hsettings, sourcePath_eq hroot hzero] at hpath
    split at hpath
    case isTrue hbelow =>
      cases hpath
      exact ⟨hbelow, hstat⟩
    case isFalse => cases hpath

/-- A path that leaves the root and comes back is taken; a neighbour of the root whose name starts
with the name of the root is not, nor is what climbs out and names the root of the file system. -/
theorem sourcePath_contained_sample :
    let root := text "/lib/../src/rsrc/"
    sourcePath [] (.ofText root) (text "../../../src/./rsrc//a/../b") =
        .ok ⟨.root, [text "src", text "rsrc", text "b"]⟩ ∧
      (∃ cause : Problem, cause.code = "E_PATH_ESCAPE" ∧
        sourcePath [] (.ofText root) (text "../rsrc-old/b") = .error cause.anywhere) ∧
      ∃ cause : Problem, cause.code = "E_PATH_ESCAPE" ∧
        sourcePath [] (.ofText root) (text "//src/rsrc/..") = .error cause.anywhere := by
  intro root
  have hroot : root.IsAbsolute := rfl
  refine ⟨?_, ?_, ?_⟩
  · have hplace : follow [] (root.componentsFrom (text "../../../src/./rsrc//a/../b")) =
        [text "src", text "rsrc", text "b"] := by decide +kernel
    rw [← hplace]
    exact (sourcePath_contained hroot (by decide +kernel) []).1 (by decide +kernel)
  · exact (sourcePath_contained hroot (by decide +kernel) []).2.1 (by decide +kernel)
  · exact (sourcePath_contained hroot (by decide +kernel) []).2.1 (by decide +kernel)

end ResourceScript
