import ResourceScript.Proofs.Destinations

namespace ResourceScript

open ResourceScript.Path

variable {code code' : String} {x y : Resource} {xs : List Resource} {directory : Path}
  {working : List Text}

/-- A sign that is shown as an underscore in the name of a directory. -/
def IsReplaced (c : Char) : Prop :=
  isPlainSign c = false ∨ c = '_'

instance (c : Char) : Decidable (IsReplaced c) :=
  inferInstanceAs (Decidable (_ ∨ _))

/-- The signs that a directory is named after. A blank code has one as well. -/
def codeSigns (code : String) : List Char :=
  if code = "" then ['_'] else code.toList

/-- Codes that are the same but for signs that are replaced. -/
def SharesDirectory (code code' : String) : Prop :=
  List.Forall₂ (fun c c' => c = c' ∨ IsReplaced c ∧ IsReplaced c') (codeSigns code)
    (codeSigns code')

theorem toList_codeDirectory (code : String) : (codeDirectory code).toList =
    (codeSigns code).map fun c => if isPlainSign c then c else '_' := by
  unfold codeSigns
  obtain ⟨hempty, hcode⟩ | ⟨hne, hcode⟩ := codeDirectory_cases code
  · rw [if_pos hempty, hcode]
    rfl
  · rw [if_neg hne, hcode]

theorem shown_eq_iff (c c' : Char) :
    ((if isPlainSign c then c else '_') = if isPlainSign c' then c' else '_') ↔
      c = c' ∨ IsReplaced c ∧ IsReplaced c' := by
  unfold IsReplaced
  by_cases hc : isPlainSign c = true <;> by_cases hc' : isPlainSign c' = true
  · rw [if_pos hc, if_pos hc']
    simp only [hc, hc', Bool.true_eq_false, false_or, iff_self_or]
    rintro ⟨rfl, rfl⟩
    rfl
  · rw [if_pos hc, if_neg hc']
    simp only [hc, hc', Bool.true_eq_false, false_or, true_or, and_true]
    constructor
    · exact .inr
    · rintro (rfl | rfl)
      · exact absurd hc hc'
      · rfl
  · rw [if_neg hc, if_pos hc']
    simp only [hc, hc', Bool.true_eq_false, false_or, true_or, true_and]
    constructor
    · exact fun h => .inr h.symm
    · rintro (rfl | rfl)
      · exact absurd hc' hc
      · rfl
  · rw [if_neg hc, if_neg hc']
    simp [hc, hc']

theorem codeDirectory_eq_iff :
    codeDirectory code = codeDirectory code' ↔ SharesDirectory code code' := by
  rw [← String.toList_inj, toList_codeDirectory, toList_codeDirectory, ← List.forall₂_eq_eq_eq,
    List.forall₂_map_left_iff, List.forall₂_map_right_iff]
  unfold SharesDirectory
  simp only [shown_eq_iff]

/-- The place of the directory for a code. One point stays in the directory for all, and two lead
above it. -/
theorem place_codeDirectory (code : String) (directory : Path) (working : List Text) :
    (directory.join (.ofString (codeDirectory code))).place working =
      if code = "." then directory.place working
      else if code = ".." then (directory.place working).dropLast
      else directory.place working ++ [(text (codeDirectory code)).utf8] := by
  split
  case isTrue hpoint =>
    have hcode : Path.ofString (codeDirectory code) = ⟨.relative, []⟩ := by
      rw [hpoint]
      decide
    rw [hcode, Path.place_join]
    rfl
  case isFalse hpoint =>
    split
    case isTrue hparent =>
      have hcode : Path.ofString (codeDirectory code) = ⟨.relative, [parentPart]⟩ := by
        rw [hparent]
        decide
      rw [hcode, Path.place_join]
      simp [Place.below]
    case isFalse hparent =>
      have hname := isName_codeDirectory_iff.mpr ⟨hpoint, hparent⟩
      rw [Path.ofString_of_isName (noSlash_codeDirectory code) hname, Path.place_join]
      exact Place.below_of_isName _ hname

def pointCodes : List String :=
  [".", ".."]

theorem not_mem_pointCodes : code ∉ pointCodes ↔ code ≠ "." ∧ code ≠ ".." := by
  simp [pointCodes]

theorem length_place_codeDirectory (code : String) (directory : Path) (working : List Text) :
    code ∈ pointCodes ∧
      ((directory.join (.ofString (codeDirectory code))).place working).length ≤
        (directory.place working).length ∨
    code ∉ pointCodes ∧ (directory.join (.ofString (codeDirectory code))).place working =
      directory.place working ++ [(text (codeDirectory code)).utf8] := by
  rw [place_codeDirectory]
  by_cases hcode : code ∈ pointCodes
  · refine .inl ⟨hcode, ?_⟩
    rcases List.mem_pair.mp hcode with rfl | rfl
    · exact le_of_eq rfl
    · simp
  · obtain ⟨hpoint, hparent⟩ := not_mem_pointCodes.mp hcode
    rw [if_neg hpoint, if_neg hparent]
    exact .inr ⟨hcode, rfl⟩

theorem place_codeDirectory_eq_iff :
    (directory.join (.ofString (codeDirectory code))).place working =
        (directory.join (.ofString (codeDirectory code'))).place working ↔
      SharesDirectory code code' ∨
        directory.place working = [] ∧ code ∈ pointCodes ∧ code' ∈ pointCodes := by
  rw [← codeDirectory_eq_iff]
  constructor
  · intro h
    -- A code of points does not lead below the directory for all, and any other code does.
    obtain ⟨hcode, hlength⟩ | ⟨hcode, hplace⟩ :=
      length_place_codeDirectory code directory working <;>
      obtain ⟨hcode', hlength'⟩ | ⟨hcode', hplace'⟩ :=
        length_place_codeDirectory code' directory working
    · by_cases heq : code = code'
      · exact .inl (congrArg codeDirectory heq)
      · refine .inr ⟨?_, hcode, hcode'⟩
        rw [place_codeDirectory, place_codeDirectory] at h
        apply List.eq_nil_of_length_eq_zero
        have hlengths := congrArg List.length h
        rcases List.mem_pair.mp hcode with rfl | rfl <;>
          rcases List.mem_pair.mp hcode' with rfl | rfl
        · exact absurd rfl heq
        · simp at hlengths
          omega
        · simp at hlengths
          omega
        · exact absurd rfl heq
    · rw [h, hplace'] at hlength
      simp at hlength
    · rw [← h, hplace] at hlength'
      simp at hlength'
    · rw [hplace, hplace', List.append_cancel_left_eq] at h
      exact .inl (utf8_injective (List.singleton_inj.mp h))
  · rintro (h | ⟨hroot, hcode, hcode'⟩)
    · rw [h]
    · have hstays : ∀ c ∈ pointCodes,
          (directory.join (.ofString (codeDirectory c))).place working = [] := by
        intro c hc
        rw [place_codeDirectory, hroot]
        rcases List.mem_pair.mp hc with rfl | rfl <;> rfl
      rw [hstays code hcode, hstays code' hcode']

theorem Path.eq_of_join_eq {p q : Path} (hp : p.anchor = .relative) (hq : q.anchor = .relative)
    (h : directory.join p = directory.join q) : p = q := by
  obtain ⟨anchor, parts⟩ := p
  obtain ⟨anchor', parts'⟩ := q
  cases hp
  cases hq
  simpa [Path.join] using h

namespace Resource

/-- The resources are written to one path, whatever directory holds the files of all. -/
def SharesPath (x y : Resource) : Prop :=
  x.id = y.id ∧ SharesDirectory x.code y.code

/-- The resources are written to one file. Above the root of all files there is nothing, so there
the two codes of points lead to one directory. -/
def SharesFile (x y : Resource) (directory : Path) (working : List Text) : Prop :=
  x.id = y.id ∧ (SharesDirectory x.code y.code ∨
    directory.place working = [] ∧ x.code ∈ pointCodes ∧ y.code ∈ pointCodes)

theorem place_eq_iff :
    x.place directory working = y.place directory working ↔ x.SharesFile y directory working := by
  rw [place_eq, place_eq, SharesFile, ← place_codeDirectory_eq_iff]
  constructor
  · intro h
    obtain ⟨hdirectory, hname⟩ := List.append_inj' h rfl
    exact ⟨fileName_injective (utf8_injective (List.singleton_inj.mp hname)), hdirectory⟩
  · rintro ⟨hid, hdirectory⟩
    rw [hid, hdirectory]

theorem join_file_eq_iff : directory.join x.file = directory.join y.file ↔ x.SharesPath y := by
  constructor
  · intro h
    have hfile : x.file = y.file := Path.eq_of_join_eq x.anchor_file y.anchor_file h
    have hplace : x.place (.ofString "/a") [] = y.place (.ofString "/a") [] := by
      rw [place, place, hfile]
    -- Below a directory other than the root the files of two paths are two.
    obtain ⟨hid, hcode | ⟨hroot, -⟩⟩ := place_eq_iff.mp hplace
    · exact ⟨hid, hcode⟩
    · exact absurd hroot (by decide)
  · rintro ⟨hid, hcode⟩
    rw [file_eq, file_eq, hid, codeDirectory_eq_iff.mpr hcode]

/-- Of the resources that share the file for `x` the one that is written last. -/
structure IsLastFor (y x : Resource) (xs : List Resource) (directory : Path) (working : List Text) :
    Prop where
  shares : x.SharesFile y directory working
  last : ∃ before after, xs = before ++ y :: after ∧
    ∀ z ∈ after, ¬x.SharesFile z directory working

theorem exists_isLastFor (hx : x ∈ xs) (directory : Path) (working : List Text) :
    ∃ y : Resource, y.IsLastFor x xs directory working := by
  have hfound : (xs.reverse.find? fun y =>
      x.place directory working = y.place directory working).isSome := by
    rw [List.find?_isSome]
    exact ⟨x, List.mem_reverse.mpr hx, by simp⟩
  obtain ⟨y, hy⟩ := Option.isSome_iff_exists.mp hfound
  obtain ⟨hplace, after, before, hsplit, hafter⟩ := List.find?_eq_some_iff_append.mp hy
  refine ⟨y, place_eq_iff.mp (of_decide_eq_true hplace), before.reverse, after.reverse, ?_, ?_⟩
  · rw [← List.reverse_reverse xs, hsplit]
    simp
  · intro z hz hshares
    have hother := hafter z (List.mem_reverse.mp hz)
    simp [place_eq_iff.mpr hshares] at hother

theorem IsLastFor.of_shares {z : Resource} (h : z.IsLastFor x xs directory working)
    (hshares : x.SharesFile y directory working) : z.IsLastFor y xs directory working := by
  have hplace := place_eq_iff.mpr hshares
  obtain ⟨hz, before, after, hsplit, hafter⟩ := h
  refine ⟨place_eq_iff.mp (hplace.symm.trans (place_eq_iff.mpr hz)), before, after, hsplit, ?_⟩
  intro u hu hyu
  exact hafter u hu (place_eq_iff.mp (hplace.trans (place_eq_iff.mpr hyu)))

end Resource

theorem Run.endsIn_writeResources_reads (files : FileTree) (directory : Path) (xs : List Resource) :
    EndsIn (writeResources directory xs) files (fun paths f =>
      paths = xs.map (directory.join ·.file) ∧
      ∀ x ∈ xs, ∀ y : Resource, y.IsLastFor x xs directory files.working →
        f.read (directory.join x.file) = .ok y.data) fun _ _ => True := by
  apply (endsIn_writeResources_last files directory xs).mono _ fun _ _ _ => trivial
  rintro _ f ⟨rfl, -, hlocates, hnodes⟩
  refine ⟨rfl, ?_⟩
  rintro x hx y ⟨hshares, before, after, hsplit, hafter⟩
  have hplace := Resource.place_eq_iff.mpr hshares
  refine FileTree.read_eq_ok.mpr ⟨_, hlocates x hx, ?_⟩
  rw [hplace]
  apply hnodes before y after hsplit
  intro z hz heq
  exact hafter z hz (Resource.place_eq_iff.mp (hplace.trans heq.symm))

/-- Writing that goes well keeps the data of a resource only where no later one shares its file:
paths are the same for codes that are the same but for replaced signs, and below the root also for
the two codes of points. -/
theorem Run.writeResources_keeps {paths : List Path} {w w' : Workspace}
    (h : writeResources directory xs w = .ok paths w') :
    paths = xs.map (directory.join ·.file) ∧
    (paths.Nodup ↔ xs.Pairwise fun x y => ¬x.SharesPath y) ∧
    (∀ x ∈ xs, ∃ y, Resource.IsLastFor y x xs directory w.files.working ∧
      w'.files.read (directory.join x.file) = .ok y.data) ∧
    ((∀ x ∈ xs, w'.files.read (directory.join x.file) = .ok x.data) ↔
      ∀ x ∈ xs, ∀ y ∈ xs, x.SharesFile y directory w.files.working → x.data = y.data) := by
  obtain ⟨rfl, hreads⟩ := (endsIn_writeResources_reads w.files directory xs).of_ok rfl h
  have hlast : ∀ x ∈ xs, ∃ y, Resource.IsLastFor y x xs directory w.files.working ∧
      w'.files.read (directory.join x.file) = .ok y.data := by
    intro x hx
    obtain ⟨y, hy⟩ := Resource.exists_isLastFor hx directory w.files.working
    exact ⟨y, hy, hreads x hx y hy⟩
  refine ⟨rfl, ?_, hlast, ?_, ?_⟩
  · rw [List.Nodup, List.pairwise_map]
    simp only [ne_eq, Resource.join_file_eq_iff]
  · intro hkept x hx y hy hshares
    obtain ⟨z, hz, hread⟩ := hlast x hx
    have hreadx := hread.symm.trans (hkept x hx)
    have hready := (hreads y hy z (hz.of_shares hshares)).symm.trans (hkept y hy)
    exact (Except.ok.inj hreadx).symm.trans (Except.ok.inj hready)
  · intro hsame x hx
    obtain ⟨y, ⟨hshares, before, after, hsplit, -⟩, hread⟩ := hlast x hx
    have hy : y ∈ xs := by
      rw [hsplit]
      exact List.mem_append_right before List.mem_cons_self
    rw [hread, hsame x hx y hy hshares]

namespace Sample

def chime : Resource :=
  { beep with code := "snd ", id := 128 }

/-- A resource of a type with an underscore in its code. -/
def bell : Resource :=
  { beep with code := "snd_", id := 128, data := [2] }

end Sample

theorem Run.writeResources_keeps_sample :
    ∃ paths w', writeResources (.ofString "out") [Sample.chime, { Sample.bell with id := 129 }]
        Sample.desk = .ok paths w' ∧ paths.Nodup ∧
      w'.files.read (.ofString "out/snd_/128.bin") = .ok [1] := by
  have hrun : ((writeResources (.ofString "out")
      [Sample.chime, { Sample.bell with id := 129 }]).run'
      Sample.desk).map (fun _ => ()) = some () := by decide +kernel
  obtain ⟨paths, w', hok, -⟩ := exists_ok_of_run' hrun
  obtain ⟨-, hpaths, -, hkept⟩ := writeResources_keeps hok
  refine ⟨paths, w', hok, hpaths.mpr ?_, ?_⟩
  · rw [List.pairwise_pair]
    rintro ⟨hid, -⟩
    exact absurd hid (by decide)
  · refine hkept.mpr ?_ Sample.chime List.mem_cons_self
    intro x hx y hy hshares
    rcases List.mem_pair.mp hx with rfl | rfl <;> rcases List.mem_pair.mp hy with rfl | rfl
    · rfl
    · exact absurd hshares.1 (by decide)
    · exact absurd hshares.1 (by decide)
    · rfl

/-- Two resources of different types are written to one path, and the first is lost. -/
theorem Run.writeResources_loses :
    [Sample.chime, Sample.bell].Pairwise (fun x y => (x.code, x.id) ≠ (y.code, y.id)) ∧
      ∃ w', writeResources (.ofString "out") [Sample.chime, Sample.bell] Sample.desk =
          .ok [.ofString "out/snd_/128.bin", .ofString "out/snd_/128.bin"] w' ∧
        w'.files.read (.ofString "out/snd_/128.bin") = .ok Sample.bell.data ∧
        Sample.chime.data ≠ Sample.bell.data := by
  refine ⟨by decide, ?_⟩
  have hrun : ((writeResources (.ofString "out") [Sample.chime, Sample.bell]).run'
      Sample.desk).map id = some [.ofString "out/snd_/128.bin", .ofString "out/snd_/128.bin"] := by
        decide +kernel
  obtain ⟨paths, w', hok, rfl⟩ := exists_ok_of_run' hrun
  obtain ⟨-, hreads⟩ := (endsIn_writeResources_reads _ _ _).of_ok rfl hok
  refine ⟨w', hok, ?_, by decide⟩
  apply hreads Sample.bell (by simp)
  refine ⟨Resource.place_eq_iff.mp rfl, [Sample.chime], [], rfl, List.forall_mem_nil _⟩

end ResourceScript
