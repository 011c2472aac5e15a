import ResourceScript.Proofs.Containment
import ResourceScript.Proofs.Effects
import ResourceScript.Template.OfDocument

namespace ResourceScript

open ResourceScript.Path

variable {code s : String} {x : Resource} {directory : Path} {working : List Text}

theorem codeDirectory_ne_empty (code : String) : codeDirectory code ≠ "" := by
  obtain ⟨-, hcode⟩ | ⟨hne, hcode⟩ := codeDirectory_cases code
  · rw [hcode]
    decide
  · intro hempty
    rw [hempty, String.toList_empty] at hcode
    exact hne (String.toList_eq_nil_iff.mp (List.map_eq_nil_iff.mp hcode.symm))

/-- Points are kept and come from nothing else, so only a code of points leads to a name of points.
-/
theorem codeDirectory_eq_points_iff (hs : ∀ c ∈ s.toList, c = '.') (hne : s ≠ "") :
    codeDirectory code = s ↔ code = s := by
  have hsign (c : Char) (h : (if isPlainSign c then c else '_') = '.') : c = '.' := by
    split at h
    · exact h
    · exact absurd h (by decide)
  have hkept (cs : List Char) (hcs : ∀ c ∈ cs, c = '.') :
      (cs.map fun c => if isPlainSign c then c else '_') = cs := by
    have hself : ∀ c ∈ cs, (if isPlainSign c then c else '_') = id c := by
      intro c hc
      rw [hcs c hc]
      rfl
    rw [List.map_congr_left hself, List.map_id]
  constructor
  · rintro rfl
    obtain ⟨-, hcode⟩ | ⟨-, hcode⟩ := codeDirectory_cases code
    · rw [hcode] at hs
      exact absurd (hs '_' (by decide)) (by decide)
    · have hpoints : ∀ c ∈ code.toList, c = '.' := by
        intro c hc
        apply hsign c
        apply hs
        rw [hcode]
        exact List.mem_map_of_mem hc
      rw [hkept _ hpoints] at hcode
      exact (String.toList_inj.mp hcode).symm
  · rintro rfl
    obtain ⟨hempty, -⟩ | ⟨-, hcode⟩ := codeDirectory_cases code
    · exact absurd hempty hne
    · rw [hkept _ hs] at hcode
      exact String.toList_inj.mp hcode

theorem isName_codeDirectory_iff :
    IsName (text (codeDirectory code)) ↔ code ≠ "." ∧ code ≠ ".." := by
  have hpoint : codeDirectory code = "." ↔ code = "." :=
    codeDirectory_eq_points_iff (by simp) (by decide)
  have hparent : codeDirectory code = ".." ↔ code = ".." :=
    codeDirectory_eq_points_iff (by simp) (by decide)
  constructor
  · intro h
    constructor
    · intro hcode
      exact h.ne_point (congrArg text (hpoint.mpr hcode))
    · intro hcode
      exact h.ne_parent (congrArg text (hparent.mpr hcode))
  · rintro ⟨hone, htwo⟩
    constructor
    · intro h
      have hempty : codeDirectory code = "" := text_injective h
      exact codeDirectory_ne_empty code hempty
    · intro h
      exact hone (hpoint.mp (text_injective h))
    · intro h
      exact htwo (hparent.mp (text_injective h))

namespace Path

theorem resolve_join_relative (p : Path) {q : Path} (hq : q.anchor = .relative)
    (working : List Text) : (p.join q).resolve working =
      ⟨.root, q.parts.foldl (fun above name =>
        if name = parentPart then above.dropLast else above ++ [name])
        (p.resolve working).parts⟩ := by
  rw [join, if_pos hq, resolve, resolve]
  simp only
  split
  · rw [← List.append_assoc, normalize, List.foldl_append, ← normalize]
  · rw [normalize, List.foldl_append, ← normalize]

end Path

namespace Resource

/-- The names that lead to the file for a resource from the directory that holds the files of all.
-/
def names (x : Resource) : List Text :=
  [text (codeDirectory x.code), text (fileName x.id)]

/-- The file for a resource stands in a subdirectory of a directory, on whatever way that is
reached. -/
structure StaysBelow (x : Resource) (directory : Path) (working : List Text) : Prop where
  isName : IsName (text (codeDirectory x.code))
  noSlash : '/' ∉ (codeDirectory x.code).toList
  path : directory.join x.file = ⟨directory.anchor, directory.parts ++ x.names⟩
  resolved : (directory.join x.file).resolve working =
    ⟨.root, (directory.resolve working).parts ++ x.names⟩
  place : x.place directory working = directory.place working ++ x.names.map Text.utf8

theorem file_of_isName (h : IsName (text (codeDirectory x.code))) :
    x.file = ⟨.relative, x.names⟩ := by
  rw [file_eq, Path.ofString_of_isName (noSlash_codeDirectory x.code) h]
  rfl

theorem staysBelow_iff :
    x.StaysBelow directory working ↔ x.code ≠ "." ∧ x.code ≠ ".." := by
  rw [← isName_codeDirectory_iff]
  constructor
  · exact StaysBelow.isName
  · intro h
    have hfile := file_of_isName h
    have hname := isName_fileName x.id
    refine ⟨h, noSlash_codeDirectory x.code, ?_, ?_, ?_⟩
    · rw [hfile]
      rfl
    · rw [Path.resolve_join_relative directory x.anchor_file, hfile]
      simp [names, h.ne_parent, hname.ne_parent]
    · rw [Resource.place, hfile, Path.place_join]
      simp [names, Place.below_of_isName _ h, Place.below_of_isName _ hname]

theorem resolve_of_point (h : x.code = ".") : (directory.join x.file).resolve working =
    ⟨.root, (directory.resolve working).parts ++ [text (fileName x.id)]⟩ := by
  have hcode : Path.ofString (codeDirectory x.code) = ⟨.relative, []⟩ := by
    rw [h]
    decide
  rw [Path.resolve_join_relative directory x.anchor_file, file_eq, hcode]
  simp [Path.join, (isName_fileName x.id).ne_parent]

theorem resolve_of_parent (h : x.code = "..") : (directory.join x.file).resolve working =
    ⟨.root, (directory.resolve working).parts.dropLast ++ [text (fileName x.id)]⟩ := by
  have hcode : Path.ofString (codeDirectory x.code) = ⟨.relative, [parentPart]⟩ := by
    rw [h]
    decide
  rw [Path.resolve_join_relative directory x.anchor_file, file_eq, hcode]
  simp [Path.join, (isName_fileName x.id).ne_parent]

end Resource

/-- Resources are written below the directory for them, each in a subdirectory, unless the code of
their type is one point, which leaves the subdirectory out, or two, which lead out of the directory.
Whether the writing goes well or not, no other file is touched. -/
theorem Run.writeResources_below (directory : Path) (xs : List Resource) (w : Workspace) :
    (∀ (x : Resource) (working : List Text),
      (x.StaysBelow directory working ↔ x.code ≠ "." ∧ x.code ≠ "..") ∧
      (x.code = "." → (directory.join x.file).resolve working =
        ⟨.root, (directory.resolve working).parts ++ [text (fileName x.id)]⟩) ∧
      (x.code = ".." → (directory.join x.file).resolve working =
        ⟨.root, (directory.resolve working).parts.dropLast ++ [text (fileName x.id)]⟩)) ∧
    Ends (writeResources directory xs) w
      (fun paths w' => paths = xs.map (directory.join ·.file) ∧
        w.files.Grows (fun place => ∃ x ∈ xs, place = x.place directory w.files.working) w'.files)
      fun _ w' =>
        w.files.Grows (fun place => ∃ x ∈ xs, place = x.place directory w.files.working)
          w'.files := by
  constructor
  · intro x working
    exact ⟨Resource.staysBelow_iff, Resource.resolve_of_point, Resource.resolve_of_parent⟩
  · have hwrites := endsIn_writeResources w.files directory xs w rfl
    exact hwrites.mono (fun _ _ h => ⟨h.1, h.2.1⟩) fun _ _ h => h

namespace Sample

/-- A resource with a code that is no name of a file as it stands. -/
def beep : Resource where
  code := "a/.."
  id := -1
  name := []
  data := [1]
  slots := []

/-- A resource of a type that has two points for a code. -/
def stray : Resource :=
  { beep with code := "..", id := 128 }

def desk : Workspace where
  files := {
    working := [.ofString "work"]
    nodes := [(["work".toUTF8.toList], .directory),
      (["work".toUTF8.toList, "note".toUTF8.toList], .file [7])] }
  reporter := { style := .silent }

def strayFile : Configuration where
  root := .map [(.text "types", .list
    [.map [(.text "name", .text "T"), (.text "code", .text "..")]])]

end Sample

theorem Run.writeResources_below_sample :
    ((Path.ofString "out/x/..").join Sample.beep.file).resolve [text "work"] =
        ⟨.root, [text "work", text "out", text "a_..", text "-1.bin"]⟩ ∧
      ∃ w', writeResources (.ofString "out") [Sample.beep] Sample.desk =
          .ok [.ofString "out/a_../-1.bin"] w' ∧
        w'.files.node? ["work".toUTF8.toList, "note".toUTF8.toList] = some (.file [7]) := by
  obtain ⟨hfiles, -⟩ := writeResources_below (.ofString "out/x/..") [] Sample.desk
  obtain ⟨hbelow, -, -⟩ := hfiles Sample.beep [text "work"]
  obtain ⟨hplaces, hwritten⟩ := writeResources_below (.ofString "out") [Sample.beep] Sample.desk
  constructor
  · rw [(hbelow.mpr ⟨by decide, by decide⟩).resolved]
    decide +kernel
  · have hrun : ((writeResources (.ofString "out") [Sample.beep]).run' Sample.desk).map id =
        some [.ofString "out/a_../-1.bin"] := by decide +kernel
    obtain ⟨paths, w', hok, rfl⟩ := exists_ok_of_run' hrun
    obtain ⟨-, hgrows⟩ := hwritten.of_ok hok
    refine ⟨w', hok, (hgrows.files ?_).mpr (by decide +kernel)⟩
    rintro ⟨x, hx, hplace⟩
    obtain rfl := List.mem_singleton.mp hx
    obtain ⟨hbelow, -, -⟩ := hplaces Sample.beep Sample.desk.files.working
    rw [(hbelow.mpr ⟨by decide, by decide⟩).place] at hplace
    exact absurd hplace (by decide +kernel)

/-- A type may have two points for a code, and then its resources are written beside the directory
for them. -/
theorem file_beside_directory :
    (∃ t, TypeTemplate.allOfConfiguration Sample.strayFile = .ok [t] ∧ t.code = Sample.stray.code) ∧
      (Path.ofString "out").resolve [text "work"] = ⟨.root, [text "work", text "out"]⟩ ∧
      ((Path.ofString "out").join Sample.stray.file).resolve [text "work"] =
        ⟨.root, [text "work", text "128.bin"]⟩ ∧
      ¬[text "work", text "out"] <+: [text "work", text "128.bin"] := by
  have h : TypeTemplate.allOfConfiguration Sample.strayFile = .ok [⟨"T", "..", [], []⟩] :=
    Except.toOption_eq_some.mp (by decide +kernel)
  refine ⟨⟨_, h, rfl⟩, ?_⟩
  decide +kernel

end ResourceScript
