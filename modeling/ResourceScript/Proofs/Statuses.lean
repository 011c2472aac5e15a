import Mathlib.Data.List.TakeDrop
import Mathlib.Data.List.TakeWhile
import ResourceScript.Proofs.JsonRendering
import ResourceScript.Report.Reporter

namespace ResourceScript

namespace Json

variable {members : List (String × Text)}

theorem sortKeys_ofTexts (members : List (String × Text)) :
    (ofTexts members).sortKeys = ofTexts (members.mergeSort fun a b => a.1 ≤ b.1) := by
  have hsorted : sortKeysMembers (members.map fun m => (m.1, .str m.2)) =
      members.map fun m => (m.1, .str m.2) := by
    induction members with
    | nil => rfl
    | cons m members ih =>
      rw [List.map_cons, sortKeysMembers, ih]
      rfl
  rw [ofTexts, sortKeys, hsorted, ofTexts, List.map_mergeSort]
  intro a _ b _
  rfl

/-- A line that is read as an object with these members and nothing else. -/
def IsLineOf (line : Text) (members : List (String × Text)) : Prop :=
  ∃ cs, line = .ofChars cs ++ text "\n" ∧ (∀ c ∈ cs, isVisible c = true) ∧
    ∃ found : List (String × Text), found.Perm members ∧
      parse cs = .ok (ofTexts (found.map fun m => (m.1, m.2.map readBack)))

theorem isLineOf_sortKeys (h : (members.map Prod.fst).Nodup) :
    IsLineOf (text (ofTexts members).sortKeys.compact).line members := by
  have hperm := List.mergeSort_perm members fun a b => a.1 ≤ b.1
  have hnodup := (hperm.map Prod.fst).nodup_iff.mpr h
  rw [sortKeys_ofTexts]
  exact ⟨_, rfl, isVisible_compact_ofTexts _, _, hperm, parse_compact_ofTexts hnodup⟩

end Json

theorem Details.record_texts {details : List (String × Text)} (event : String)
    (parts : List (String × Text)) (hdetails : (details.map Prod.fst).Nodup) :
    Details.record (details.map fun m => (m.1, .str m.2)) event
        (parts.map fun m => (m.1, .str m.2)) =
      if ∀ m ∈ details, m.1 ∉ "self" :: "event" :: parts.map Prod.fst
      then .ok (Json.ofTexts (("event", text event) :: parts ++ details)).sortKeys
      else .error .nameTaken := by
  have hkeys (ms : List (String × Text)) :
      (ms.map fun m => (m.1, Json.str m.2)).map Prod.fst = ms.map Prod.fst := List.map_map
  have hmembers : ("event", Json.ofString event) :: (parts.map fun m => (m.1, .str m.2)) ++
      (details.map fun m => (m.1, .str m.2)) =
        (("event", text event) :: parts ++ details).map fun m => (m.1, .str m.2) := by
    simp [Json.ofString]
  simp only [record, hkeys, List.forall_mem_map, hmembers, hdetails, and_true]
  rfl

namespace Summary

variable {t word value : Text} {name : String}

/-- The names of the members that every summary has, and the one that no member may have. -/
def ownNames : List String :=
  ["self", "event", "summary_type", "raw"]

/-- A message that reads as a summary and has a pair of such a name among its words. -/
def TakesName (message : Text) : Prop :=
  ∃ kind ∈ kinds, ∃ rest, after? (kind ++ " summary:").toList message = some rest ∧
    isLine rest = true ∧
    ∃ word ∈ rest.splitOnP isBlank, ∃ name ∈ ownNames, text (name ++ "=") <+: word

def members (s : Summary) (message : Text) : List (String × Text) :=
  [("event", text "summary"), ("summary_type", s.kind), ("raw", message)] ++ s.pairs

/-- The letters that the words for what can be summed up begin with. -/
def initials : List Char :=
  ['t', 'c', 'w', 'm', 'i']

theorem isForm_unique {a b : Char} {g : Glyph} (ha : a ∈ initials) (hb : b ∈ initials)
    (hga : isForm a g = true) (hgb : isForm b g = true) : a = b := by
  have hs : 's' ∉ initials := by decide
  have hdotless : initials.filter (isForm · (.char 'ı')) = ['i'] := by decide
  have hdotted : initials.filter (isForm · (.char 'İ')) = ['i'] := by decide
  cases g with
  | byte => cases hga
  | char c =>
    -- No word begins with an s, so that no other form is more than the letter in one case or the
    -- other.
    by_cases h : c = 'ı' ∨ c = 'İ'
    · have hdot {a : Char} (ha : a ∈ initials) (hform : isForm a (.char c) = true) : a = 'i' := by
        have hmem : a ∈ initials.filter (isForm · (.char c)) := List.mem_filter.mpr ⟨ha, hform⟩
        rw [← List.mem_singleton]
        obtain rfl | rfl := h
        · rwa [hdotless] at hmem
        · rwa [hdotted] at hmem
      rw [hdot ha hga, hdot hb hgb]
    · simp only [isForm, h, ne_of_mem_of_not_mem ha hs, ne_of_mem_of_not_mem hb hs, Bool.or_eq_true,
        Bool.and_eq_true, beq_iff_eq, false_and, and_false, or_false] at hga hgb
      exact hga.symm.trans hgb

theorem exists_head_of_after? (h : after? (c :: cs) t = some rest) :
    ∃ g, t.head? = some g ∧ isForm c g = true := by
  cases t with
  | nil => cases h
  | cons g t =>
    rw [after?] at h
    split at h
    case isTrue hg => exact ⟨g, rfl, hg⟩
    case isFalse => cases h

theorem kind_unique {kind kind' : String} {message rest rest' : Text} (hkind : kind ∈ kinds)
    (hkind' : kind' ∈ kinds) (h : after? (kind ++ " summary:").toList message = some rest)
    (h' : after? (kind' ++ " summary:").toList message = some rest') : kind = kind' := by
  have hinitial : ∀ kind ∈ kinds,
      (kind ++ " summary:").toList.head? ∈ initials.map some := by decide
  have hdistinct : ∀ kind ∈ kinds, ∀ kind' ∈ kinds,
      (kind ++ " summary:").toList.head? = (kind' ++ " summary:").toList.head? → kind = kind' := by
    decide
  apply hdistinct kind hkind kind' hkind'
  obtain ⟨c, hc, hhead⟩ := List.mem_map.mp (hinitial kind hkind)
  obtain ⟨c', hc', hhead'⟩ := List.mem_map.mp (hinitial kind' hkind')
  obtain ⟨cs, hcs⟩ := List.head?_eq_some_iff.mp hhead.symm
  obtain ⟨cs', hcs'⟩ := List.head?_eq_some_iff.mp hhead'.symm
  obtain ⟨g, hg, hform⟩ := exists_head_of_after? (hcs ▸ h)
  obtain ⟨g', hg', hform'⟩ := exists_head_of_after? (hcs' ▸ h')
  obtain rfl := Option.some.inj (hg.symm.trans hg')
  rw [← hhead, ← hhead', isForm_unique hc hc' hform hform']

theorem ofMessage?_eq_some_iff {message : Text} {s : Summary} : ofMessage? message = some s ↔
    ∃ kind ∈ kinds, ∃ rest, after? (kind ++ " summary:").toList message = some rest ∧
      isLine rest = true ∧
      s = { kind := (message.take kind.length).flatMap small, pairs := pairsOf rest } := by
  have hfound {s : Summary} (h : ofMessage? message = some s) :
      ∃ kind ∈ kinds, ∃ rest, after? (kind ++ " summary:").toList message = some rest ∧
        isLine rest = true ∧
        s = { kind := (message.take kind.length).flatMap small, pairs := pairsOf rest } := by
    obtain ⟨kind, hkind, h⟩ := List.exists_of_findSome?_eq_some h
    obtain ⟨rest, hafter, h⟩ := Option.bind_eq_some_iff.mp h
    split at h
    case isTrue hline => exact ⟨kind, hkind, rest, hafter, hline, (Option.some.inj h).symm⟩
    case isFalse => cases h
  refine ⟨hfound, ?_⟩
  rintro ⟨kind, hkind, rest, hafter, hline, rfl⟩
  cases h : ofMessage? message with
  | none =>
    have hnone := List.findSome?_eq_none_iff.mp h kind hkind
    rw [hafter] at hnone
    simp [hline] at hnone
  | some s =>
    obtain ⟨kind', hkind', rest', hafter', -, rfl⟩ := hfound h
    obtain rfl := kind_unique hkind hkind' hafter hafter'
    obtain rfl := Option.some.inj (hafter.symm.trans hafter')
    rfl

theorem pair?_eq_some_iff : pair? word = some (name, value) ↔
    ∃ n, Glyph.char '=' ∉ n ∧ word = n ++ .char '=' :: value ∧ Text.toString n = name := by
  unfold pair?
  simp only [List.span_eq_takeWhile_dropWhile]
  constructor
  · intro h
    split at h
    case h_1 g value' hrest =>
      cases h
      have hg : g = .char '=' := by
        have hhead := List.head_dropWhile_not (· != Glyph.char '=') (l := word) (by simp [hrest])
        simpa [hrest] using hhead
      refine ⟨word.takeWhile (· != .char '='), ?_, ?_, rfl⟩
      · intro hmem
        exact absurd (List.mem_takeWhile_imp hmem) (by decide)
      · rw [hg] at hrest
        rw [← hrest, List.takeWhile_append_dropWhile]
    case h_2 => cases h
  · rintro ⟨n, hn, rfl, rfl⟩
    have hall : ∀ g ∈ n, (g != .char '=') = true := by
      intro g hg
      exact bne_iff_ne.mpr fun h => hn (h ▸ hg)
    rw [List.takeWhile_append_of_pos hall, List.dropWhile_append_of_pos hall]
    simp

theorem eq_text_of_toString {s : String} (hs : '\uFFFD' ∉ s.toList) (h : Text.toString t = s) :
    t = text s := by
  have hchars : ∀ t : Text, '\uFFFD' ∉ t.toChars → Text.ofChars t.toChars = t := by
    intro t
    induction t with
    | nil => exact fun _ => rfl
    | cons g t ih =>
      intro h
      cases g with
      | char c => exact congrArg (Glyph.char c :: ·) (ih (mt (List.mem_cons_of_mem _) h))
      | byte b => exact absurd List.mem_cons_self h
  rw [← h, Text.toString, String.toList_ofList] at hs
  change t = .ofChars s.toList
  rw [← h, Text.toString, String.toList_ofList, hchars t hs]

theorem exists_pair?_iff (hreplaced : '\uFFFD' ∉ name.toList) (h : '=' ∉ name.toList) :
    (∃ value, pair? word = some (name, value)) ↔ text (name ++ "=") <+: word := by
  have htext (value : Text) : text (name ++ "=") ++ value = text name ++ .char '=' :: value := by
    simp [Text.ofString, Text.ofChars]
  constructor
  · rintro ⟨value, hpair⟩
    obtain ⟨n, -, rfl, hn⟩ := pair?_eq_some_iff.mp hpair
    rw [eq_text_of_toString hreplaced hn]
    exact ⟨value, htext value⟩
  · rintro ⟨value, rfl⟩
    refine ⟨value, pair?_eq_some_iff.mpr ⟨text name, ?_, htext value, Text.toString_ofString name⟩⟩
    simpa [Text.ofString, Text.ofChars] using h

theorem takesName_iff (message : Text) : TakesName message ↔
    ∃ s, ofMessage? message = some s ∧ ∃ m ∈ s.pairs, m.1 ∈ ownNames := by
  have hname : ∀ name ∈ ownNames, '\uFFFD' ∉ name.toList ∧ '=' ∉ name.toList := by decide
  have hpairs (t : Text) : (∃ m ∈ pairsOf t, m.1 ∈ ownNames) ↔
      ∃ word ∈ t.splitOnP isBlank, ∃ name ∈ ownNames, text (name ++ "=") <+: word := by
    have hmem (name : String) : name ∈ (pairsOf t).map Prod.fst ↔
        ∃ word ∈ t.splitOnP isBlank, ∃ value, pair? word = some (name, value) := by
      rw [pairsOf, mem_keys_mergeMembers]
      simp only [List.map_nil, List.not_mem_nil, false_or, List.mem_map, List.mem_filterMap]
      grind
    constructor
    · rintro ⟨m, hm, hown⟩
      obtain ⟨word, hword, hpair⟩ := (hmem m.1).mp (List.mem_map_of_mem hm)
      obtain ⟨hreplaced, hequals⟩ := hname m.1 hown
      exact ⟨word, hword, m.1, hown, (exists_pair?_iff hreplaced hequals).mp hpair⟩
    · rintro ⟨word, hword, name, hown, hprefix⟩
      obtain ⟨hreplaced, hequals⟩ := hname name hown
      have hpair := (exists_pair?_iff hreplaced hequals).mpr hprefix
      obtain ⟨m, hm, rfl⟩ := List.mem_map.mp ((hmem name).mpr ⟨word, hword, hpair⟩)
      exact ⟨m, hm, hown⟩
  constructor
  · rintro ⟨kind, hkind, rest, hafter, hline, hword⟩
    refine ⟨_, ofMessage?_eq_some_iff.mpr ⟨kind, hkind, rest, hafter, hline, rfl⟩, ?_⟩
    exact (hpairs rest).mpr hword
  · rintro ⟨s, hs, htaken⟩
    obtain ⟨kind, hkind, rest, hafter, hline, rfl⟩ := ofMessage?_eq_some_iff.mp hs
    exact ⟨kind, hkind, rest, hafter, hline, (hpairs rest).mp htaken⟩

theorem ofMessage?_nodup {message : Text} {s : Summary} (h : ofMessage? message = some s) :
    (s.pairs.map Prod.fst).Nodup := by
  obtain ⟨kind, -, rest, -, -, rfl⟩ := ofMessage?_eq_some_iff.mp h
  exact nodup_mergeMembers List.nodup_nil

theorem record_eq {s : Summary} (hs : (s.pairs.map Prod.fst).Nodup) (message : Text) :
    s.record message [] = if ∀ m ∈ s.pairs, m.1 ∉ ownNames
      then .ok (Json.ofTexts (s.members message)).sortKeys else .error .nameTaken := by
  rw [record, List.append_nil]
  exact Details.record_texts "summary" [("summary_type", s.kind), ("raw", message)] hs

theorem nodup_members {s : Summary} (hs : (s.pairs.map Prod.fst).Nodup)
    (hfree : ∀ m ∈ s.pairs, m.1 ∉ ownNames) (message : Text) :
    ((s.members message).map Prod.fst).Nodup := by
  have hown : ["event", "summary_type", "raw"] ⊆ ownNames := by decide
  rw [members, List.map_append, List.nodup_append]
  refine ⟨(by decide : ["event", "summary_type", "raw"].Nodup), hs, ?_⟩
  rintro name hname _ hpair rfl
  obtain ⟨m, hm, rfl⟩ := List.mem_map.mp hpair
  exact hfree m hm (hown hname)

end Summary

def statusMembers (message : Text) : List (String × Text) :=
  [("event", text "status"), ("message", message), ("level", text "info")]

namespace Reporter

variable {r : Reporter} {message : Text}

theorem messageRecord_status (message : Text) : Event.messageRecord .status message [] =
    .ok (Json.ofTexts (statusMembers message)).sortKeys := by
  have hnone : (([] : List (String × Text)).map Prod.fst).Nodup := List.nodup_nil
  exact Details.record_texts "status" [("message", message), ("level", text "info")] hnone

theorem writeRecords_error (f : Fault) (records : List (Except Fault Json)) (r : Reporter) :
    writeRecords (.error f :: records) r = .error f r := rfl

theorem writeRecords_ok (records : List Json) (r : Reporter) :
    writeRecords (records.map .ok) r =
      .ok () { r with
        written := r.written ++ (records.map fun j => (text j.compact).line).flatten } := by
  induction records generalizing r with
  | nil =>
    rw [List.map_nil, List.map_nil, List.flatten_nil, List.append_nil]
    rfl
  | cons j records ih =>
    rw [List.map_cons, List.map_cons, List.flatten_cons, ← List.append_assoc]
    exact ih { r with written := r.written ++ (text j.compact).line }

theorem report_status_eq (hr : r.style = .records) (message : Text) :
    report (.message .status message []) r =
      writeRecords (Event.records none (.message .status message [])) r := by
  obtain ⟨style, verbosity, debugging, tasks, bars, written⟩ := r
  cases hr
  rfl

/-- A reporter of records writes one line for a status message, and another before it if the message
reads as a summary. If a word of the summary takes a name that its record uses itself, it fails and
writes nothing. -/
theorem report_status (hr : r.style = .records) (message : Text) :
    (Summary.TakesName message → report (.message .status message []) r = .error .nameTaken r) ∧
    (¬ Summary.TakesName message → ∃ lines,
      report (.message .status message []) r =
        .ok () { r with written := r.written ++ lines.flatten } ∧
      List.Forall₂ Json.IsLineOf lines
        (((Summary.ofMessage? message).map (·.members message)).toList ++
          [statusMembers message])) := by
  have hstatus : Json.IsLineOf (text (Json.ofTexts (statusMembers message)).sortKeys.compact).line
      (statusMembers message) :=
    Json.isLineOf_sortKeys (by decide : ["event", "message", "level"].Nodup)
  rw [report_status_eq hr, Event.records, messageRecord_status, Summary.takesName_iff]
  cases hsummary : Summary.ofMessage? message with
  | none =>
    refine ⟨by simp, fun _ => ⟨_, writeRecords_ok [_] r, .cons hstatus .nil⟩⟩
  | some s =>
    have hnodup := Summary.ofMessage?_nodup hsummary
    simp only [Option.map_some, Option.toList_some, Summary.record_eq hnodup, Option.some.injEq,
      exists_eq_left']
    constructor
    · rintro ⟨m, hm, hown⟩
      rw [if_neg fun hfree => hfree m hm hown]
      exact writeRecords_error _ _ r
    · intro htaken
      have hfree : ∀ m ∈ s.pairs, m.1 ∉ Summary.ownNames := by simpa using htaken
      have hs := Json.isLineOf_sortKeys (Summary.nodup_members hnodup hfree message)
      rw [if_pos hfree]
      exact ⟨_, writeRecords_ok [_, _] r, .cons hs (.cons hstatus .nil)⟩

theorem report_status_sample :
    let message := text "Write summary: files=1 dir=out"
    ∃ lines, report (.message .status message []) { style := .records } =
        .ok () { style := .records, written := lines.flatten } ∧
      List.Forall₂ Json.IsLineOf lines
        [[("event", text "summary"), ("summary_type", text "write"), ("raw", message),
          ("files", text "1"), ("dir", text "out")],
        [("event", text "status"), ("message", message), ("level", text "info")]] := by
  have hsummary : Summary.ofMessage? (text "Write summary: files=1 dir=out") =
      some { kind := text "write", pairs := [("files", text "1"), ("dir", text "out")] } := by
    decide +kernel
  obtain ⟨-, hlines⟩ := report_status (r := { style := .records }) rfl
    (text "Write summary: files=1 dir=out")
  rw [Summary.takesName_iff, hsummary] at hlines
  exact hlines (by decide)

theorem report_status_of_taken_name :
    report (.message .status (text "Types summary: file=t.json type=T raw=1 code=snd fields=1") [])
      { style := .records } = .error .nameTaken { style := .records } := by
  rfl

end Reporter

end ResourceScript
