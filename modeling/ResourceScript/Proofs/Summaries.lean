import ResourceScript.Proofs.Containment
import ResourceScript.Proofs.JsonText
import ResourceScript.Proofs.Recovery
import ResourceScript.Proofs.Reports
import ResourceScript.Proofs.Statuses

namespace ResourceScript

theorem Text.ofString_append (s t : String) : text (s ++ t) = text s ++ text t := by
  simp [ofString, ofChars]

def Text.IsWord (t : Text) : Prop :=
  ∀ g ∈ t, Summary.isBlank g = false

instance (t : Text) : Decidable t.IsWord :=
  inferInstanceAs (Decidable (∀ g ∈ t, Summary.isBlank g = false))

theorem Json.perm_of_sortKeys_ofTexts {members members' : List (String × Text)}
    (h : (ofTexts members).sortKeys = (ofTexts members').sortKeys) : members.Perm members' := by
  have hinjective : Function.Injective fun m : String × Text => (m.1, Json.str m.2) := by
    rintro ⟨name, value⟩ ⟨name', value'⟩ h
    cases h
    rfl
  rw [sortKeys_ofTexts, sortKeys_ofTexts, ofTexts, ofTexts, obj.injEq,
    (List.map_injective_iff.mpr hinjective).eq_iff] at h
  have hperm := List.mergeSort_perm members fun a b => a.1 ≤ b.1
  rw [h] at hperm
  exact hperm.symm.trans (List.mergeSort_perm members' _)

namespace Summary

variable {t value : Text} {words : List Text} {pairs : List (String × Text)} {name : String}

theorem splitOnP_words (word : Text) (words : List Text) (h : ∀ w ∈ word :: words, w.IsWord) :
    (word ++ words.flatMap (.char ' ' :: ·)).splitOnP isBlank = word :: words := by
  induction words generalizing word with
  | nil =>
    rw [List.flatMap_nil, List.append_nil]
    exact List.splitOnP_eq_singleton (h word List.mem_cons_self)
  | cons word' words ih =>
    obtain ⟨hword, hwords⟩ := List.forall_mem_cons.mp h
    rw [List.flatMap_cons, List.cons_append, List.splitOnP_append_cons _ _ (by decide),
      ih word' hwords, List.splitOnP_eq_singleton hword]
    rfl

def wordOf (m : String × Text) : Text :=
  text (m.1 ++ "=") ++ m.2

def wordsOf (pairs : List (String × Text)) : Text :=
  (pairs.map wordOf).flatMap (.char ' ' :: ·)

def IsName (name : String) : Prop :=
  '=' ∉ name.toList ∧ (text name).IsWord

instance (name : String) : Decidable (IsName name) :=
  inferInstanceAs (Decidable (_ ∧ _))

theorem pair?_wordOf (h : IsName name) (value : Text) :
    pair? (wordOf (name, value)) = some (name, value) := by
  refine pair?_eq_some_iff.mpr ⟨text name, ?_, ?_, Text.toString_ofString name⟩
  · simpa [Text.ofString, Text.ofChars] using h.1
  · rw [wordOf, Text.ofString_append, List.append_assoc]
    rfl

theorem isWord_wordOf (h : IsName name) (hvalue : value.IsWord) :
    (wordOf (name, value)).IsWord := by
  have hequals : (text "=").IsWord := by decide
  rw [Text.IsWord, wordOf, Text.ofString_append, List.forall_mem_append, List.forall_mem_append]
  exact ⟨⟨h.2, hequals⟩, hvalue⟩

theorem isWord_of_mem_words (hnames : ∀ m ∈ pairs, IsName m.1)
    (hvalues : ∀ m ∈ pairs, m.2.IsWord) : ∀ w ∈ pairs.map wordOf, Text.IsWord w := by
  rw [List.forall_mem_map]
  exact fun m hm => isWord_wordOf (hnames m hm) (hvalues m hm)

theorem pairsOf_wordsOf (hnames : ∀ m ∈ pairs, IsName m.1) (hvalues : ∀ m ∈ pairs, m.2.IsWord)
    (hnodup : (pairs.map Prod.fst).Nodup) : pairsOf (wordsOf pairs) = pairs := by
  have hwords := List.forall_mem_cons.mpr
    ⟨(List.forall_mem_nil _ : Text.IsWord []), isWord_of_mem_words hnames hvalues⟩
  have hpairs : (pairs.map wordOf).filterMap pair? = pairs := by
    have hpair : ∀ m ∈ pairs, (pair? ∘ wordOf) m = some m :=
      fun m hm => pair?_wordOf (hnames m hm) m.2
    rw [List.filterMap_map, List.filterMap_congr hpair, List.filterMap_some]
  rw [pairsOf, wordsOf, ← List.nil_append (List.flatMap _ _), splitOnP_words _ _ hwords,
    List.filterMap_cons_none rfl, hpairs, mergeMembers_nil_of_nodup hnodup]

theorem isWord_of_mem_pairsOf (t : Text) : ∀ m ∈ pairsOf t, m.2.IsWord := by
  have hwords : ∀ m ∈ (t.splitOnP isBlank).filterMap pair?, m.2.IsWord := by
    intro m hm g hg
    obtain ⟨word, hword, hpair⟩ := List.mem_filterMap.mp hm
    obtain ⟨n, -, rfl, -⟩ := pair?_eq_some_iff.mp hpair
    exact (of_mem_splitOnP hword g (List.mem_append_right n (List.mem_cons_of_mem _ hg))).2
  exact Json.forall_mem_mergeMembers (List.forall_mem_nil _) hwords

/-- A value in the record of a summary is one word, unless every record has a member of its name. -/
theorem isWord_of_mem_members {message : Text} {s : Summary} {m : String × Text}
    (hs : ofMessage? message = some s) (hname : m.1 ∉ ownNames) (hmem : m ∈ s.members message) :
    m.2.IsWord := by
  obtain ⟨kind, -, rest, -, -, rfl⟩ := ofMessage?_eq_some_iff.mp hs
  rcases List.mem_append.mp hmem with hfixed | hpair
  · have hfixedName : m.1 ∈ ["event", "summary_type", "raw"] := List.mem_map_of_mem hfixed
    exact absurd (List.mem_cons_of_mem "self" hfixedName) hname
  · exact isWord_of_mem_pairsOf rest m hpair

theorem isLine_wordsOf (hnames : ∀ m ∈ pairs, IsName m.1) (hvalues : ∀ m ∈ pairs, m.2.IsWord) :
    isLine (wordsOf pairs) = true := by
  have hnewline : Glyph.char '\n' ∉ wordsOf pairs := by
    intro hmem
    obtain ⟨word, hword, hmem⟩ := List.mem_flatMap.mp hmem
    have hblank := isWord_of_mem_words hnames hvalues word hword (.char '\n')
    rcases List.mem_cons.mp hmem with h | h
    · exact absurd h (by decide)
    · exact absurd (hblank h) (by decide)
  have hdropped := mt (fun h => List.dropLast_subset _ h) hnewline
  simpa [isLine] using hdropped

end Summary

namespace BuildOrder

variable {file name code : Text} {fields : Nat}

/-- The values that a run tells about the types it compiles against. -/
def typesPairs (file name code : Text) (fields : Nat) : List (String × Text) :=
  [("file", file), ("type", name), ("code", code), ("fields", .ofNat fields)]

def typesLine (file name code : Text) (fields : Nat) : Text :=
  text "Types summary: file=" ++ file ++ text " type=" ++ name ++ text " code=" ++ code ++
    text " fields=" ++ .ofNat fields

theorem typesLine_eq (file name code : Text) (fields : Nat) : typesLine file name code fields =
    text "Types summary:" ++ Summary.wordsOf (typesPairs file name code fields) := by
  have hwords (m : String × Text) : Summary.wordOf m = text (m.1 ++ "=") ++ m.2 := rfl
  simp only [typesLine, typesPairs, Summary.wordsOf, List.map_cons, List.map_nil, List.flatMap_cons,
    List.flatMap_nil, hwords, List.append_assoc, List.append_nil]
  rfl

theorem isWord_ofNat (n : Nat) : (Text.ofNat n).IsWord := by
  have hdigit : ∀ d : Fin 10, Summary.isBlank (.char (Nat.digitChar d)) = false := by decide
  obtain ⟨ds, hds, hall, -⟩ := Text.exists_digits 10 (by decide) n
  have hdigits : Text.ofNat n = ds.map fun d => .char (Nat.digitChar d) := by
    change Text.ofChars (String.ofList (Nat.toDigits 10 n)).toList = _
    rw [String.toList_ofList, hds, Text.ofChars, List.map_map]
    rfl
  rw [hdigits, Text.IsWord, List.forall_mem_map]
  exact fun d hd => hdigit ⟨d, hall d hd⟩

theorem name_of_mem_typesPairs {m : String × Text} (hm : m ∈ typesPairs file name code fields) :
    Summary.IsName m.1 ∧ m.1 ∉ Summary.ownNames := by
  have hnames : ∀ name ∈ ["file", "type", "code", "fields"],
      Summary.IsName name ∧ name ∉ Summary.ownNames := by
    decide
  exact hnames m.1 (List.mem_map_of_mem hm)

theorem ofMessage?_typesLine (hfile : file.IsWord) (hname : name.IsWord) (hcode : code.IsWord)
    (fields : Nat) : Summary.ofMessage? (typesLine file name code fields) =
      some { kind := text "types", pairs := typesPairs file name code fields } := by
  have hnames : ∀ m ∈ typesPairs file name code fields, Summary.IsName m.1 :=
    fun m hm => (name_of_mem_typesPairs hm).1
  have hvalues : ∀ m ∈ typesPairs file name code fields, m.2.IsWord := by
    simp only [typesPairs, List.forall_mem_cons]
    exact ⟨hfile, hname, hcode, isWord_ofNat fields, List.forall_mem_nil _⟩
  rw [typesLine_eq, Summary.ofMessage?_eq_some_iff]
  refine ⟨"types", by decide, Summary.wordsOf (typesPairs file name code fields), rfl,
    Summary.isLine_wordsOf hnames hvalues, ?_⟩
  rw [Summary.pairsOf_wordsOf hnames hvalues (by decide : ["file", "type", "code", "fields"].Nodup)]
  rfl

/-- The event of the summary, with the values as they are. -/
def typesEvent (file name code : Text) (fields : Nat) : Json :=
  (Json.ofTexts [("event", text "summary"), ("summary_type", text "types"),
    ("raw", typesLine file name code fields), ("file", file), ("type", name), ("code", code),
    ("fields", .ofNat fields)]).sortKeys

def statusEvent (message : Text) : Json :=
  (Json.ofTexts (statusMembers message)).sortKeys

theorem records_typesLine_iff (file name code : Text) (fields : Nat) :
    Event.records none (.message .status (typesLine file name code fields) []) =
        [.ok (typesEvent file name code fields),
          .ok (statusEvent (typesLine file name code fields))] ↔
      file.IsWord ∧ name.IsWord ∧ code.IsWord := by
  rw [Event.records, Reporter.messageRecord_status]
  constructor
  · intro h
    cases hs : Summary.ofMessage? (typesLine file name code fields) with
    | none =>
      rw [hs] at h
      cases (List.cons.inj h).2
    | some s =>
      rw [hs, Option.map_some, Option.toList_some,
        Summary.record_eq (Summary.ofMessage?_nodup hs)] at h
      have hevent := (List.cons.inj h).1
      split at hevent
      case isFalse => cases hevent
      case isTrue =>
        have hperm := Json.perm_of_sortKeys_ofTexts (Except.ok.inj hevent)
        have hvalues : ∀ m ∈ typesPairs file name code fields, m.2.IsWord := by
          intro m hm
          have hmem : m ∈ s.members (typesLine file name code fields) :=
            hperm.mem_iff.mpr (List.mem_append_right [_, _, _] hm)
          exact Summary.isWord_of_mem_members hs (name_of_mem_typesPairs hm).2 hmem
        simp only [typesPairs, List.forall_mem_cons] at hvalues
        obtain ⟨hfile, hname, hcode, -⟩ := hvalues
        exact ⟨hfile, hname, hcode⟩
  · rintro ⟨hfile, hname, hcode⟩
    have hsummary := ofMessage?_typesLine hfile hname hcode fields
    rw [hsummary, Option.map_some, Option.toList_some,
      Summary.record_eq (Summary.ofMessage?_nodup hsummary), if_pos]
    · rfl
    · exact fun m hm => (name_of_mem_typesPairs hm).2

theorem typesLine_told (file : Text) (name code : String) (fields : Nat) :
    text "Types summary: file=" ++ file ++ text s!" type={name} code={code} fields={fields}" =
      typesLine file name code fields := by
  simp only [typesLine, toString, Text.ofString_append, List.append_assoc, Text.ofNat]

/-- The event of a types summary has the file, the type and the code as its values exactly if no
blank stands in any of them; and a run with records reports that event, and the message after it,
before all else that it reports, whatever becomes of it. -/
theorem types_event_iff (file name code : Text) (fields : Nat) :
    (Event.records none (.message .status (typesLine file name code fields) []) =
        [.ok (typesEvent file name code fields),
          .ok (statusEvent (typesLine file name code fields))] ↔
      file.IsWord ∧ name.IsWord ∧ code.IsWord) ∧
    ∀ (o : BuildOrder) (surroundings : Surroundings) (w : Workspace) (registry : Registry)
      (type : TypeTemplate), w.reporter.style = .records →
      loadRegistry w.files o.types o.type = .ok registry → registry.active = .ok type →
      o.types.name.IsWord → (text type.name).IsWord → (text type.code).IsWord →
      let line := typesLine o.types.name type.name type.code type.fields.length
      let event := typesEvent o.types.name type.name type.code type.fields.length
      let reported := w.written ++ (text event.compact).line ++
        (text (statusEvent line).compact).line
      Ends (o.run surroundings) w (fun _ w' => reported <+: w'.written)
        fun _ w' => reported <+: w'.written := by
  refine ⟨records_typesLine_iff file name code fields, ?_⟩
  intro o surroundings w registry type hstyle hregistry htype hfile hname hcode line event reported
  have hrecords := (records_typesLine_iff _ _ _ type.fields.length).mpr ⟨hfile, hname, hcode⟩
  have hreport : Reporter.report (.message .status line []) w.reporter =
      .ok () { w.reporter with written := reported } := by
    have hreported : reported = w.reporter.written ++
        ([event, statusEvent line].map fun j => (text j.compact).line).flatten := by
      simp [reported, Workspace.written]
    rw [Reporter.report_status_eq hstyle, hrecords, hreported]
    exact Reporter.writeRecords_ok [event, statusEvent line] w.reporter
  have hstatus : Run.status line w =
      .ok () { w with reporter := { w.reporter with written := reported } } := by
    rw [Run.status, Run.report, Run.reporting, hreport]
  rw [run_eq]
  apply Ends.get_bind
  rw [hregistry]
  apply Ends.bind_of_ok (a := registry) rfl
  rw [htype]
  apply Ends.bind_of_ok (a := type) rfl
  rw [typesLine_told]
  apply Ends.bind_of_ok hstatus
  exact appends_compileAndWrite surroundings registry type _

end BuildOrder

namespace Sample

/-- A run with records, of a script that is not there. -/
def recorded : Workspace where
  files := tree
  reporter := { style := .records }

def recordedOrder : BuildOrder where
  script := .ofString "absent.r"
  types := .ofString "note.json"

theorem loadRegistry_tree :
    loadRegistry tree recordedOrder.types recordedOrder.type = .ok registry := by
  have hload : loadTypes tree recordedOrder.types = .ok [note] := loadTypes_tree
  rw [loadRegistry, hload]
  rfl

end Sample

theorem BuildOrder.types_event_sample :
    let line := typesLine "note.json" "Note" "Note" 2
    let reported := (text (typesEvent "note.json" "Note" "Note" 2).compact).line ++
      (text (statusEvent line).compact).line
    Ends (Sample.recordedOrder.run {}) Sample.recorded (fun _ w' => reported <+: w'.written)
      fun _ w' => reported <+: w'.written :=
  (types_event_iff "note.json" "Note" "Note" 2).2 Sample.recordedOrder {} Sample.recorded
    Sample.registry Sample.note rfl Sample.loadRegistry_tree rfl (by decide) (by decide) (by decide)

/-- Of a name with blanks only its first word is told. -/
theorem BuildOrder.types_event_of_blanks :
    Event.records none (.message .status (typesLine "t.json" "Sound Info" "snd " 1) []) ≠
      [.ok (typesEvent "t.json" "Sound Info" "snd " 1),
        .ok (statusEvent (typesLine "t.json" "Sound Info" "snd " 1))] ∧
    Summary.ofMessage? (typesLine "t.json" "Sound Info" "snd " 1) =
      some { kind := text "types", pairs := typesPairs "t.json" "Sound" "snd" 1 } := by
  exact ⟨mt (records_typesLine_iff _ _ _ 1).mp (by decide), by decide +kernel⟩

end ResourceScript
