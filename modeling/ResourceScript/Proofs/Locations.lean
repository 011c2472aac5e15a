import ResourceScript.Proofs.Containment
import ResourceScript.Proofs.Sources
import ResourceScript.Proofs.Trees
import ResourceScript.Resource.Location

namespace ResourceScript

variable {settings : Settings} {t : TypeTemplate} {taken : List Int} {ts : List Token}
  {resources : List Resource} {x : Resource} {directory : Path} {working : List Text}

theorem repr_injective {m n : Nat} (h : m.repr = n.repr) : m = n := by
  rw [Nat.repr_eq_ofList_toDigits, Nat.repr_eq_ofList_toDigits, String.ofList_inj] at h
  calc
    m = Nat.ofDigitChars 10 (Nat.toDigits 10 m) 0 := Nat.ofDigitChars_ten_toDigits.symm
    _ = Nat.ofDigitChars 10 (Nat.toDigits 10 n) 0 := by rw [h]
    _ = n := Nat.ofDigitChars_ten_toDigits

theorem isDigit_of_mem_repr {n : Nat} {c : Char} (hc : c ∈ n.repr.toList) : c.isDigit = true := by
  rw [Nat.repr_eq_ofList_toDigits, String.toList_ofList] at hc
  exact Nat.isDigit_of_mem_toDigits (by decide) (by decide) hc

theorem toList_repr_ne_cons {n : Nat} {cs : List Char} : n.repr.toList ≠ '-' :: cs := by
  intro h
  have hmem : '-' ∈ n.repr.toList := by
    rw [h]
    exact List.mem_cons_self
  exact absurd (isDigit_of_mem_repr hmem) (by decide)

theorem toString_injective {m n : Int} (h : toString m = toString n) : m = n := by
  change m.repr = n.repr at h
  rw [Int.repr_eq_if, Int.repr_eq_if] at h
  by_cases hm : 0 ≤ m
  · by_cases hn : 0 ≤ n
    · rw [if_pos hm, if_pos hn] at h
      have habs := repr_injective h
      omega
    · rw [if_pos hm, if_neg hn] at h
      exact absurd (congrArg String.toList h) (by simpa using toList_repr_ne_cons)
  · by_cases hn : 0 ≤ n
    · rw [if_neg hm, if_pos hn] at h
      exact absurd (congrArg String.toList h.symm) (by simpa using toList_repr_ne_cons)
    · rw [if_neg hm, if_neg hn, String.append_right_inj] at h
      have habs := repr_injective h
      omega

theorem utf8_injective {s s' : String} (h : (text s).utf8 = (text s').utf8) : s = s' := by
  have hutf8 (s : String) : (text s).utf8 = s.toList.flatMap String.utf8EncodeChar := by
    simp [text, Text.ofString, Text.ofChars, Text.utf8, List.flatMap_map]
  rw [hutf8, hutf8] at h
  rw [← String.toByteArray_inj, ← String.utf8Encode_toList, ← String.utf8Encode_toList]
  exact congrArg List.toByteArray h

theorem text_injective {s s' : String} (h : text s = text s') : s = s' :=
  utf8_injective (congrArg Text.utf8 h)

theorem Place.below_of_isName (place : Place) {s : String} (h : Path.IsName (text s)) :
    place.below (text s).utf8 = place ++ [(text s).utf8] := by
  rw [below, if_neg]
  intro hparent
  have hs : s = ".." := utf8_injective hparent
  exact h.ne_parent (congrArg text hs)

namespace Path

theorem ofString_of_noSlash {s : String} (h : '/' ∉ s.toList) :
    ofString s = ⟨.relative, [text s].filter fun p => !p.isEmpty && p != point⟩ := by
  have hchars : ∀ g ∈ text s, g ≠ slash := by
    intro g hg
    obtain ⟨c, hc, rfl⟩ := List.mem_map.mp hg
    intro hslash
    exact h (Glyph.char.inj hslash ▸ hc)
  have hanchor : anchorOf (text s) = .relative := by
    generalize text s = g at hchars
    unfold anchorOf
    split
    · exact absurd rfl (hchars _ List.mem_cons_self)
    · exact absurd rfl (hchars _ List.mem_cons_self)
    · exact absurd rfl (hchars _ List.mem_cons_self)
    · rfl
  have hparts : (text s).splitOnP (· == slash) = [text s] := by
    apply List.splitOnP_eq_singleton
    intro g hg
    exact beq_eq_false_iff_ne.mpr (hchars g hg)
  rw [ofString, ofText, hanchor, partsOf, hparts]

theorem ofString_of_isName {s : String} (hslash : '/' ∉ s.toList) (h : IsName (text s)) :
    ofString s = ⟨.relative, [text s]⟩ := by
  have hkeep : (!(text s).isEmpty && text s != point) = true := by
    simp [h.ne_nil, h.ne_point]
  rw [ofString_of_noSlash hslash]
  simp only [List.filter_cons, hkeep, if_true, List.filter_nil]

theorem join_join {p q r : Path} (hq : q.anchor = .relative) (hr : r.anchor = .relative) :
    p.join (q.join r) = (p.join q).join r := by
  simp [join, hq, hr]

theorem place_join (p : Path) (names : List Text) (working : List Text) :
    (p.join ⟨.relative, names⟩).place working =
      (names.map Text.utf8).foldl Place.below (p.place working) := by
  simp [place, join, List.foldl_append]

end Path

/-- The place of the file for a resource below a directory. -/
def Resource.place (x : Resource) (directory : Path) (working : List Text) : Place :=
  (directory.join x.file).place working

def fileName (id : Int) : String :=
  s!"{id}.bin"

theorem fileName_eq (id : Int) : fileName id = toString id ++ ".bin" := rfl

theorem fileName_injective {m n : Int} (h : fileName m = fileName n) : m = n := by
  rw [fileName_eq, fileName_eq, String.append_left_inj] at h
  exact toString_injective h

theorem isName_fileName (id : Int) : Path.IsName (text (fileName id)) := by
  have hlength : 4 ≤ (text (fileName id)).length := by
    rw [text, Text.ofString, Text.ofChars, List.length_map, String.length_toList, fileName_eq,
      String.length_append]
    exact Nat.le_add_left 4 _
  constructor
  · intro h
    rw [h] at hlength
    exact absurd hlength (by decide)
  · intro h
    rw [h] at hlength
    exact absurd hlength (by decide)
  · intro h
    rw [h] at hlength
    exact absurd hlength (by decide)

theorem noSlash_fileName (id : Int) : '/' ∉ (fileName id).toList := by
  rw [fileName_eq, String.toList_append, List.mem_append, not_or]
  constructor
  · change '/' ∉ id.repr.toList
    rw [Int.repr_eq_if]
    split
    · intro h
      exact absurd (isDigit_of_mem_repr h) (by decide)
    · rw [String.toList_append, List.mem_append, not_or]
      constructor
      · decide
      · intro h
        exact absurd (isDigit_of_mem_repr h) (by decide)
  · decide

theorem codeDirectory_cases (code : String) : code = "" ∧ codeDirectory code = "_" ∨
    code ≠ "" ∧ (codeDirectory code).toList =
      code.toList.map fun c => if isPlainSign c then c else '_' := by
  unfold codeDirectory
  simp only [List.isEmpty_iff, List.map_eq_nil_iff, String.toList_eq_nil_iff]
  split
  case isTrue hcode => exact .inl ⟨hcode, rfl⟩
  case isFalse hcode => exact .inr ⟨hcode, String.toList_ofList⟩

theorem noSlash_codeDirectory (code : String) : '/' ∉ (codeDirectory code).toList := by
  obtain ⟨-, hcode⟩ | ⟨-, hcode⟩ := codeDirectory_cases code
  · rw [hcode]
    decide
  · rw [hcode]
    intro h
    obtain ⟨c, -, hc⟩ := List.mem_map.mp h
    split at hc
    case isTrue hplain =>
      rw [hc] at hplain
      exact absurd hplain (by decide)
    case isFalse => exact absurd hc (by decide)

namespace Resource

theorem anchor_codeDirectory (code : String) :
    (Path.ofString (codeDirectory code)).anchor = .relative := by
  rw [Path.ofString_of_noSlash (noSlash_codeDirectory code)]

theorem file_eq (x : Resource) : x.file =
    (Path.ofString (codeDirectory x.code)).join ⟨.relative, [text (fileName x.id)]⟩ := by
  rw [← Path.ofString_of_isName (noSlash_fileName x.id) (isName_fileName x.id)]
  rfl

theorem anchor_file (x : Resource) : x.file.anchor = .relative := by
  rw [file_eq, Path.join, if_pos rfl]
  exact anchor_codeDirectory x.code

/-- Below a directory the file stands in a place that the type code determines, under a name that
the id determines. -/
theorem place_eq (x : Resource) (directory : Path) (working : List Text) :
    x.place directory working =
      (directory.join (Path.ofString (codeDirectory x.code))).place working ++
        [(text (fileName x.id)).utf8] := by
  rw [place, file_eq, Path.join_join (anchor_codeDirectory x.code) rfl, Path.place_join]
  exact Place.below_of_isName _ (isName_fileName x.id)

end Resource

namespace Grammar.Script

end Grammar.Script

end ResourceScript
