import ResourceScript.Proofs.Declarations
import ResourceScript.Proofs.Decoding
import ResourceScript.Proofs.Loading

namespace ResourceScript

variable {t : TypeTemplate} {values : List (String × Value)} {settings : Settings} {s s' : Session}
  {x : Resource} {ts : List Token} {header : Header}

/-- The value that a declaration gives to an entry: the one that a field wrote, or the zero of its
type. -/
def Entry.declared (values : List (String × Value)) (e : Entry) : Value :=
  (values.lookup e.name).getD e.type.zero

namespace TypeTemplate

theorem bytesOf_eq_encoding (hd : HasDistinctEntries t.entries) (he : e ∈ t.entries) :
    t.bytesOf values e = Entry.encoding (Entry.declared values) e := by
  rw [bytesOf, Entry.encoding, Entry.declared]
  cases values.lookup e.name with
  | some v => rw [typeOf_of_mem hd he, Option.getD_some]
  | none => rw [Option.getD_none, ValueType.default_eq_encode_zero]

theorem resource_data (hd : HasDistinctEntries t.entries) (id : Int) (name : Option Text) :
    (t.resource id name values).data =
      t.entries.flatMap (Entry.encoding (Entry.declared values)) :=
  List.flatMap_congr fun _ he => bytesOf_eq_encoding hd he

theorem fits_declared (hd : HasDistinctEntries t.entries)
    (ha : ∀ p ∈ values, p.2.Admissible (t.typeOf p.1)) :
    Entry.Fits (Entry.declared values) t.entries := by
  intro e he hu
  rw [Entry.declared]
  cases hv : values.lookup e.name with
  | none => exact ValueType.zero_admissible hu
  | some v =>
    obtain ⟨before, after, rfl, -⟩ := List.lookup_eq_some_iff.mp hv
    have hadm := ha (e.name, v) (by simp)
    rwa [typeOf_of_mem hd he] at hadm

theorem decode_resource_iff (hd : HasDistinctEntries t.entries)
    (ha : ∀ p ∈ values, p.2.Admissible (t.typeOf p.1)) (id : Int) (name : Option Text) :
    (∃ d, t.decode (t.resource id name values).data = .ok d ∧
      d.entries.map (fun d => (d.name, d.value)) =
        Entry.valuesOf (Entry.declared values) t.entries) ↔
      Entry.Recoverable (Entry.declared values) t.entries := by
  rw [resource_data hd]
  exact Entry.decodeAll_iff (fits_declared hd ha) []

theorem inspect_resource_issues (hd : HasDistinctEntries t.entries)
    (ha : ∀ p ∈ values, p.2.Admissible (t.typeOf p.1)) (id : Int) (name : Option Text)
    (hr : Entry.Recoverable (Entry.declared values) t.entries) :
    (t.inspect (t.resource id name values).data).issues = [] := by
  obtain ⟨d, hdecode, -, hconsumed⟩ :=
    Entry.decodeAll_of_recoverable (fits_declared hd ha) hr []
  rw [resource_data hd]
  have ho : (t.inspect (t.entries.flatMap (Entry.encoding (Entry.declared values)))).outcome =
      .ok d := hdecode
  have hs : d.consumed =
      (t.inspect (t.entries.flatMap (Entry.encoding (Entry.declared values)))).size := hconsumed
  rw [Inspection.issues, ho]
  simp only [hs, if_true]

end TypeTemplate

namespace Declaration

/-- A declaration that is read has the resource of whatever values the rules find in its tokens. -/
theorem eq_resource_of_read (ht : s.registry.active? = some t)
    (hread : read settings s = .ok x s') (hrest : s.cursor.rest = ts ++ us)
    (hd : Grammar.Declaration settings t ts header values) :
    ∃ id, x = t.resource id header.name values := by
  have hm := Cursor.moves_advance hrest
  obtain ⟨_, header', _, id, -, ⟨c, hheader⟩, -, hid, -⟩ :=
    (ends_read ⟨ht, List.suffix_refl _⟩).of_ok hread
  have heq : header' = header := by
    cases hd with
    | mk hts _ =>
      obtain ⟨c', hc', -⟩ := hm.split
      rw [Header.read_of_moves hts hc'] at hheader
      cases hheader
      rfl
  obtain ⟨journal, hj⟩ := read_of_moves ht hd hm (heq ▸ hid)
  rw [hj] at hread
  cases hread
  exact ⟨id, rfl⟩

/-- The resource of a declaration decodes to the values that its tokens give to the entries exactly
if these are recoverable, and then nothing is odd about its bytes. -/
theorem read_decode_iff {tree : FileTree} {file : Path} {types : List TypeTemplate}
    (hload : loadTypes tree file = .ok types) (hmem : t ∈ types)
    (hactive : s.registry.active? = some t) (hread : read settings s = .ok x s') :
    (∃ ts header values, s.cursor.rest = ts ++ s'.cursor.rest ∧
      Grammar.Declaration settings t ts header values) ∧
    ∀ ts header values, s.cursor.rest = ts ++ s'.cursor.rest →
      Grammar.Declaration settings t ts header values →
      ((∃ d, t.decode x.data = .ok d ∧ d.entries.map (fun d => (d.name, d.value)) =
          Entry.valuesOf (Entry.declared values) t.entries) ↔
        Entry.Recoverable (Entry.declared values) t.entries) ∧
      (Entry.Recoverable (Entry.declared values) t.entries → (t.inspect x.data).issues = []) := by
  have hd := TypeTemplate.loadTypes_distinct hload hmem
  refine ⟨?_, ?_⟩
  · obtain ⟨ts, header, values, -, hm, -, hdecl, -⟩ :=
      (ends_read ⟨hactive, List.suffix_refl _⟩).of_ok hread
    exact ⟨ts, header, values, hm.rest, hdecl⟩
  · intro ts header values hrest hdecl
    obtain ⟨id, rfl⟩ := eq_resource_of_read hactive hread hrest hdecl
    exact ⟨TypeTemplate.decode_resource_iff hd hdecl.admissible id header.name,
      TypeTemplate.inspect_resource_issues hd hdecl.admissible id header.name⟩

end Declaration

namespace Sample

def template : String :=
  "\x7b\"types\":[\x7b\"name\":\"Note\",\"template\":[" ++
    "\x7b\"name\":\"rank\",\"type\":\"HWRD\"\x7d," ++
    "\x7b\"name\":\"label\",\"type\":\"CSTR\"\x7d],\"fields\":[\"rank\",\"label\"]\x7d]\x7d"

def tree : FileTree where
  working := []
  nodes := [(["note.json".toUTF8.toList], .file template.toUTF8.toList)]

theorem loadTypes_tree : loadTypes tree (Path.ofString "note.json") = .ok [note] :=
  Except.toOption_eq_some.mp (by decide +kernel)

end Sample

theorem Declaration.read_decode_sample : ∃ x s', read Sample.settings Sample.session = .ok x s' ∧
    (∃ d, Sample.note.decode x.data = .ok d ∧ d.entries.map (fun d => (d.name, d.value)) =
      [("rank", .integer 7), ("label", .bytes [])]) ∧ (Sample.note.inspect x.data).issues = [] := by
  obtain ⟨journal, hread⟩ := read_of_moves (s := Sample.session) rfl Sample.declaration_spells
    Sample.session.cursor.moves_rest ⟨rfl, by decide⟩
  obtain ⟨-, h⟩ := read_decode_iff Sample.loadTypes_tree List.mem_cons_self rfl hread
  obtain ⟨hdecode, hissues⟩ := h _ _ _ rfl Sample.declaration_spells
  have hr : Entry.Recoverable (Entry.declared [("rank", .integer 7)]) Sample.note.entries := by
    simp [Entry.Recoverable, Sample.note, Sample.rank, Sample.label, ValueType.endsAtZero,
      Entry.declared, ValueType.zero, List.lookup_cons]
  exact ⟨_, _, hread, hdecode.mpr hr, hissues hr⟩

end ResourceScript
