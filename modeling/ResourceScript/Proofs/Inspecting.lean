import ResourceScript.Proofs.Decoding
import ResourceScript.Proofs.Members
import ResourceScript.Proofs.Names
import ResourceScript.Proofs.Recovery

namespace ResourceScript

namespace Entry

/-- The faults of an entry that has no value at an offset. -/
inductive Lacks (e : Entry) (data : Bytes) (offset : Nat) : Fault → Prop where
  | type : e.type = .unknown → Lacks e data offset (.entryWithoutType e.name)
  | start : data.length ≤ offset → Lacks e data offset (.entryBeyondData e.name offset data.length)
  | width : e.type.size? = some width → data.length < offset + width →
      Lacks e data offset (.entryCut e.name offset width data.length)
  | pascal : e.type = .pascal → data[offset]? = some length →
      data.length < offset + 1 + length.toNat → Lacks e data offset (.pascalOverrun offset)
  | terminator : e.type = .terminated → 0 ∉ data.drop offset →
      Lacks e data offset (.terminatorMissing offset)
  | fixed : e.type = .fixed size → data.length < offset + size →
      Lacks e data offset (.fixedOverrun offset)

/-- Reading entries one after the other inside the data, each where the one before it stops. -/
inductive Reads (data : Bytes) : Nat → List Entry → List DecodedEntry → Nat → Prop where
  | nil : Reads data offset [] [] offset
  | cons {e : Entry} {used : Nat} : e.type.read data offset = .ok (v, (used : Int)) →
      offset + used ≤ data.length → Reads data (offset + used) es xs stop →
      Reads data offset (e :: es) (⟨e.name, offset, v⟩ :: xs) stop

/-- The offsets of entries by their names, and under the empty name where the last of them stops. -/
def offsetTable (data : Bytes) : List Entry → Int → List (String × Int) →
    Except Fault (List (String × Int))
  | [], offset, table => .ok (setMember "" offset table)
  | e :: es, offset, table => do
    let (_, used) ← e.type.read data offset.toNat
    offsetTable data es (offset + used) (setMember e.name offset table)

end Entry

/-- Bytes spelled with two digits each, the higher one first. -/
inductive SpellsHex : Bytes → List Char → Prop where
  | nil : SpellsHex [] []
  | cons {x : UInt8} : "0123456789abcdef".toList[x.toNat / 16]? = some high →
      "0123456789abcdef".toList[x.toNat % 16]? = some low → SpellsHex b cs →
      SpellsHex (x :: b) (high :: low :: cs)

/-- How a decoded value is told: as a number, as a list of four, or as hexadecimal digits. -/
inductive Value.IsTold : Value → Json → Prop where
  | integer : IsTold (.integer n) (.int n)
  | rectangle : IsTold (.rectangle [top, left, bottom, right])
      (.arr [.int top, .int left, .int bottom, .int right])
  | bytes : SpellsHex b cs → IsTold (.bytes b) (.str (cs.map Glyph.char))

/-- How a decoded entry is told: by its name, its offset and its value. -/
inductive DecodedEntry.IsTold : DecodedEntry → Json → Prop where
  | mk {x : DecodedEntry} : x.value.IsTold j → IsTold x
      (.obj [("name", .str (x.name.toList.map .char)), ("offset", .int x.offset), ("value", j)])

variable {e : Entry} {es : List Entry} {xs : List DecodedEntry} {data : Bytes} {offset stop : Nat}
  {fault : Fault} {d : Decoded} {table : List (String × Int)} {t : TypeTemplate}
  {types : List TypeTemplate}

namespace ValueType

theorem slice_eq_ok {b : Bytes} : slice data offset width = .ok b ↔
    offset + width ≤ data.length ∧ b = (data.drop offset).take width := by
  unfold slice
  split
  case isTrue h => simp [h, eq_comm]
  case isFalse h => simp [h]

theorem slice_eq_error : slice data offset width = .error fault ↔
    data.length < offset + width ∧ fault = .shortData offset width data.length := by
  unfold slice
  split
  case isTrue h => simp [Nat.not_lt.mpr h]
  case isFalse h => simp [Nat.lt_of_not_le h, eq_comm]

theorem read_within {type : ValueType} (ho : offset ≤ data.length)
    (h : type.read data offset = .ok (v, used)) :
    ∃ n : Nat, used = n ∧ offset + n ≤ data.length := by
  cases type with
  | integer i =>
    obtain ⟨b, hb, h⟩ := Except.bind_eq_ok.mp h
    cases h
    exact ⟨_, rfl, (slice_eq_ok.mp hb).1⟩
  | rectangle =>
    obtain ⟨b, hb, h⟩ := Except.bind_eq_ok.mp h
    cases h
    exact ⟨8, rfl, (slice_eq_ok.mp hb).1⟩
  | pascal =>
    simp only [read] at h
    split at h
    · cases h
    case h_2 length tail hrest =>
      split at h
      · cases h
      case isFalse hlt =>
        cases h
        have hlen := congrArg List.length hrest
        rw [List.length_drop, List.length_cons] at hlen
        exact ⟨1 + length.toNat, by omega, by omega⟩
  | terminated =>
    simp only [read] at h
    split at h
    case isTrue hlt =>
      cases h
      rw [List.length_drop] at hlt
      exact ⟨_ + 1, rfl, by omega⟩
    · cases h
  | fixed size =>
    simp only [read] at h
    split at h
    case isTrue hlen =>
      cases h
      rw [List.length_take, List.length_drop] at hlen
      exact ⟨size, rfl, by omega⟩
    · cases h
  | raw =>
    cases h
    exact ⟨data.length - offset, by omega, by omega⟩
  | unknown => cases h

theorem spellsHex_hexOfBytes (b : Bytes) : SpellsHex b (Text.hexOfBytes b).toList := by
  have hdigits : ∀ n : Fin 256, (Text.hexDigits 2 n).map some =
      ["0123456789abcdef".toList[n.val / 16]?, "0123456789abcdef".toList[n.val % 16]?] := by
    decide +kernel
  rw [Text.hexOfBytes, String.toList_ofList]
  induction b with
  | nil => exact .nil
  | cons x b ih =>
    obtain ⟨high, rest, hx, hhigh, hrest⟩ := List.map_eq_cons_iff.mp (hdigits ⟨x.toNat, x.toNat_lt⟩)
    obtain ⟨low, rest, rfl, hlow, hnil⟩ := List.map_eq_cons_iff.mp hrest
    obtain rfl := List.map_eq_nil_iff.mp hnil
    rw [List.flatMap_cons, hx]
    exact .cons hhigh.symm hlow.symm ih

theorem isTold_of_read {type : ValueType} (h : type.read data offset = .ok (v, used)) :
    v.IsTold v.toJson := by
  have hbytes (b : Bytes) : (Value.bytes b).IsTold (Value.bytes b).toJson :=
    .bytes (spellsHex_hexOfBytes b)
  cases type with
  | integer i =>
    obtain ⟨b, -, h⟩ := Except.bind_eq_ok.mp h
    cases h
    exact .integer
  | rectangle =>
    obtain ⟨b, -, h⟩ := Except.bind_eq_ok.mp h
    cases h
    exact .rectangle
  | pascal =>
    simp only [read] at h
    split at h
    · cases h
    · split at h
      · cases h
      · cases h
        exact hbytes _
  | terminated =>
    simp only [read] at h
    split at h
    · cases h
      exact hbytes _
    · cases h
  | fixed size =>
    simp only [read] at h
    split at h
    · cases h
      exact hbytes _
    · cases h
  | raw =>
    cases h
    exact hbytes _
  | unknown => cases h

end ValueType

namespace Entry

theorem lacks_of_read (ho : offset < data.length)
    (h : e.type.read data offset = .error fault) (hu : e.type ≠ .unknown) :
    e.Lacks data offset (e.blame fault) := by
  cases htype : e.type with
  | integer i =>
    rw [htype] at h
    obtain h | ⟨b, -, h⟩ := Except.bind_eq_error.mp h
    · obtain ⟨hlt, rfl⟩ := ValueType.slice_eq_error.mp h
      exact .width (by rw [htype]; rfl) hlt
    · cases h
  | rectangle =>
    rw [htype] at h
    obtain h | ⟨b, -, h⟩ := Except.bind_eq_error.mp h
    · obtain ⟨hlt, rfl⟩ := ValueType.slice_eq_error.mp h
      exact .width (by rw [htype]; rfl) hlt
    · cases h
  | pascal =>
    simp only [htype, ValueType.read] at h
    split at h
    case h_1 hrest =>
      have hle := List.drop_eq_nil_iff.mp hrest
      omega
    case h_2 length tail hrest =>
      split at h
      case isTrue hlt =>
        cases h
        have hlen := congrArg List.length hrest
        rw [List.length_drop, List.length_cons] at hlen
        have hhead := congrArg List.head? hrest
        rw [List.head?_drop] at hhead
        exact .pascal htype hhead (by omega)
      · cases h
  | terminated =>
    simp only [htype, ValueType.read] at h
    split at h
    · cases h
    case isFalse hlt =>
      cases h
      apply Lacks.terminator htype
      intro hzero
      have hall := (List.takeWhile_prefix _).eq_of_length_le (Nat.le_of_not_lt hlt)
      exact absurd (List.takeWhile_eq_self_iff.mp hall 0 hzero) (by decide)
  | fixed size =>
    simp only [htype, ValueType.read] at h
    split at h
    · cases h
    case isFalse hlen =>
      cases h
      rw [List.length_take, List.length_drop] at hlen
      exact .fixed htype (by omega)
  | raw =>
    rw [htype] at h
    cases h
  | unknown => exact absurd htype hu

theorem lacks_of_decode (h : e.decode data offset = .error fault) : e.Lacks data offset fault := by
  unfold decode at h
  split at h
  case isTrue hu =>
    cases h
    exact .type hu
  case isFalse hu =>
    split at h
    case isTrue ho =>
      cases h
      exact .start (by omega)
    case isFalse ho =>
      split at h
      · cases h
      case h_2 fault hread =>
        cases h
        by_cases hlt : offset < data.length
        · exact lacks_of_read hlt hread hu
        · have hraw : e.type = .raw := by
            by_contra hne
            exact ho (.inr ⟨by omega, hne⟩)
          rw [hraw] at hread
          cases hread

theorem reads_of_decodeAll (ho : offset ≤ data.length) (h : decodeAll data es offset = .ok d) :
    Reads data offset es d.entries d.consumed := by
  induction es generalizing offset d with
  | nil =>
    cases h
    exact .nil
  | cons e es ih =>
    obtain ⟨⟨v, n⟩, hdecode, h⟩ := Except.bind_eq_ok.mp h
    obtain ⟨d', hrest, h⟩ := Except.bind_eq_ok.mp h
    cases h
    obtain ⟨-, -, used, hread, rfl⟩ := read_of_decode hdecode
    obtain ⟨n, rfl, hn⟩ := ValueType.read_within ho hread
    rw [Int.toNat_natCast] at hrest
    exact .cons hread hn (ih hn hrest)

theorem lacks_of_decodeAll (ho : offset ≤ data.length)
    (h : decodeAll data es offset = .error fault) :
    ∃ e ∈ es, ∃ offset ≤ data.length, e.Lacks data offset fault := by
  induction es generalizing offset with
  | nil => cases h
  | cons e es ih =>
    obtain h | ⟨⟨v, n⟩, hdecode, h⟩ := Except.bind_eq_error.mp h
    · exact ⟨e, List.mem_cons_self, offset, ho, lacks_of_decode h⟩
    · obtain ⟨-, -, used, hread, rfl⟩ := read_of_decode hdecode
      obtain ⟨n, rfl, hn⟩ := ValueType.read_within ho hread
      obtain h | ⟨d', -, h⟩ := Except.bind_eq_error.mp h
      · obtain ⟨e', he', hlacks⟩ := ih hn h
        exact ⟨e', List.mem_cons_of_mem e he', hlacks⟩
      · cases h

theorem Reads.names (h : Reads data offset es xs stop) : xs.map (·.name) = es.map (·.name) := by
  induction h with
  | nil => rfl
  | cons _ _ _ ih => rw [List.map_cons, List.map_cons, ih]

theorem Reads.le_stop (h : Reads data offset es xs stop) : offset ≤ stop := by
  induction h with
  | nil => exact Nat.le_refl _
  | cons _ _ _ ih => exact Nat.le_trans (Nat.le_add_right _ _) ih

theorem Reads.stop_le (h : Reads data offset es xs stop) (ho : offset ≤ data.length) :
    stop ≤ data.length := by
  induction h with
  | nil => exact ho
  | cons _ hn _ ih => exact ih hn

theorem Reads.offset_le (h : Reads data offset es xs stop) : ∀ x ∈ xs, x.offset ≤ stop := by
  induction h with
  | nil => exact List.forall_mem_nil _
  | cons _ _ hrest ih =>
    have hle := hrest.le_stop
    exact List.forall_mem_cons.mpr ⟨by simp only; omega, ih⟩

theorem Reads.isTold (h : Reads data offset es xs stop) :
    List.Forall₂ DecodedEntry.IsTold xs (xs.map DecodedEntry.toJson) := by
  induction h with
  | nil => exact .nil
  | cons hread _ _ ih => exact .cons (.mk (ValueType.isTold_of_read hread)) ih

theorem Lacks.exists_message (h : e.Lacks data offset fault) : ∃ m, fault.message? = some m := by
  cases h <;> exact ⟨_, rfl⟩

/-- The table has the offsets that the entries were read at, since no name overwrites another nor
the end of the last entry. -/
theorem Reads.offsetTable (h : Reads data offset es xs stop)
    (hdistinct : TypeTemplate.HasDistinctEntries es) (hnames : ∀ e ∈ es, e.name ≠ "")
    (table : List (String × Int)) :
    ∃ table', Entry.offsetTable data es offset table = .ok table' ∧
      (∀ x ∈ xs, table'.lookup x.name = some (x.offset : Int)) ∧
      table'.lookup "" = some (stop : Int) ∧
      ∀ name, name ≠ "" → name ∉ es.map (·.name) → table'.lookup name = table.lookup name := by
  induction h generalizing table with
  | @nil offset =>
    refine ⟨_, rfl, List.forall_mem_nil _, ?_, ?_⟩
    · rw [lookup_setMember, if_pos rfl]
    · intro name hname _
      rw [lookup_setMember, if_neg hname]
  | @cons offset v es xs stop e used hread hn hrest ih =>
    obtain ⟨hne, hnames⟩ := List.forall_mem_cons.mp hnames
    obtain ⟨hnew, hdistinct⟩ := List.nodup_cons.mp hdistinct
    obtain ⟨table', htable, hxs, hstop, hothers⟩ :=
      ih hdistinct hnames (setMember e.name (offset : Int) table)
    refine ⟨table', ?_, ?_, hstop, ?_⟩
    · rw [Entry.offsetTable, Int.toNat_natCast, hread]
      exact htable
    · rw [List.forall_mem_cons]
      constructor
      · rw [hothers e.name hne hnew, lookup_setMember, if_pos rfl]
      · exact hxs
    · intro name hname hmem
      rw [List.map_cons, List.mem_cons, not_or] at hmem
      rw [hothers name hname hmem.2, lookup_setMember, if_neg hmem.1]

end Entry

/-- Whatever the bytes, looking into them as a resource of a loaded type ends in a report: either it
names the entry that the bytes have no value for, or it tells the name, the offset and the value of
every entry, read where the value before it stops. -/
theorem TypeTemplate.inspect_report {tree : FileTree} {file : Path}
    (hload : loadTypes tree file = .ok types) (ht : t ∈ types) (data : Bytes) :
    (∀ fault, t.decode data = .error fault →
      (∃ e ∈ t.entries, ∃ offset ≤ data.length, e.Lacks data offset fault) ∧
      ∃ message, fault.message? = some message ∧ (t.inspect data).issues = [message] ∧
        (t.inspect data).outcomeMembers = [("error", .str message), ("entries", .arr [])]) ∧
    (∀ d, t.decode data = .ok d →
      d.entries.map (·.name) = t.entries.map (·.name) ∧
      Entry.Reads data 0 t.entries d.entries d.consumed ∧
      (∀ x ∈ d.entries, x.offset ≤ data.length) ∧ d.consumed ≤ data.length ∧
      ∃ table, Entry.offsetTable data t.entries 0 [] = .ok table ∧
        (∀ x ∈ d.entries, table.lookup x.name = some (x.offset : Int)) ∧
        table.lookup "" = some (d.consumed : Int) ∧
        ∃ rows, List.Forall₂ DecodedEntry.IsTold d.entries rows ∧
          (t.inspect data).outcomeMembers =
            [("entries", .arr rows), ("consumed", .int d.consumed)]) ∧
    ((t.inspect data).issues = [] ↔ ∃ d, t.decode data = .ok d ∧ d.consumed = data.length) := by
  refine ⟨?_, ?_, ?_⟩
  · intro fault h
    have hlacks := Entry.lacks_of_decodeAll (Nat.zero_le _) h
    obtain ⟨e, _, offset, _, hl⟩ := id hlacks
    obtain ⟨message, hmessage⟩ := hl.exists_message
    have hreport : (t.inspect data).outcome = .error fault := h
    refine ⟨hlacks, message, hmessage, ?_, ?_⟩
    · rw [Inspection.issues, hreport]
      simp only [hmessage, Option.getD_some]
    · rw [Inspection.outcomeMembers, hreport]
      simp only [hmessage, Option.getD_some]
  · intro d h
    have hreads := Entry.reads_of_decodeAll (Nat.zero_le _) h
    have hstop := hreads.stop_le (Nat.zero_le _)
    obtain ⟨table, htable, hxs, hconsumed, -⟩ :=
      hreads.offsetTable (loadTypes_distinct hload ht) (loadTypes_named hload ht) []
    have hreport : (t.inspect data).outcome = .ok d := h
    refine ⟨hreads.names, hreads, ?_, hstop, table, htable, hxs, hconsumed, _, hreads.isTold, ?_⟩
    · intro x hx
      exact Nat.le_trans (hreads.offset_le x hx) hstop
    · rw [Inspection.outcomeMembers, hreport]
  · have hreport : (t.inspect data).outcome = t.decode data := rfl
    rw [Inspection.issues, hreport]
    cases t.decode data with
    | error fault => simp
    | ok d =>
      have hsize : (t.inspect data).size = data.length := rfl
      by_cases hd : d.consumed = data.length <;> simp [hsize, hd]

theorem TypeTemplate.inspect_report_sample :
    (∃ e ∈ Sample.note.entries, ∃ offset ≤ 3, e.Lacks [0, 7, 97] offset (.terminatorMissing 2)) ∧
      (∃ d, Sample.note.decode [0, 7, 97, 0] = .ok d ∧
        d.entries = [⟨"rank", 0, .integer 7⟩, ⟨"label", 2, .bytes [97]⟩] ∧
        Entry.Reads [0, 7, 97, 0] 0 Sample.note.entries d.entries d.consumed ∧
        (∃ table, Entry.offsetTable [0, 7, 97, 0] Sample.note.entries 0 [] = .ok table ∧
          table.lookup "" = some (d.consumed : Int)) ∧
        ∃ rows, List.Forall₂ DecodedEntry.IsTold d.entries rows ∧
          (Sample.note.inspect [0, 7, 97, 0]).outcomeMembers =
            [("entries", .arr rows), ("consumed", .int 4)]) ∧
      (Sample.note.inspect [0, 7, 97, 0]).issues = [] := by
  have hcut := inspect_report Sample.loadTypes_tree List.mem_cons_self [0, 7, 97]
  obtain ⟨-, hok, hissues⟩ := inspect_report Sample.loadTypes_tree List.mem_cons_self [0, 7, 97, 0]
  refine ⟨(hcut.1 _ rfl).1, ?_, hissues.mpr ⟨_, rfl, rfl⟩⟩
  obtain ⟨-, hreads, -, -, table, htable, -, hstop, hrows⟩ := hok _ rfl
  exact ⟨_, rfl, by decide +kernel, hreads, ⟨table, htable, hstop⟩, hrows⟩

end ResourceScript
