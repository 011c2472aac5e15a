import ResourceScript.Command.Execute
import ResourceScript.Proofs.Malformed
import ResourceScript.Proofs.Names
import ResourceScript.Proofs.Numerals
import ResourceScript.Proofs.Recovery

namespace ResourceScript

namespace Text

variable {cs : List Char}

theorem dropWhile_isBlank (h : ∀ c ∈ cs, isBlank c = false) : cs.dropWhile isBlank = cs := by
  cases cs with
  | nil => rfl
  | cons c cs => rw [List.dropWhile_cons_of_neg (by simp [h c List.mem_cons_self])]

theorem strip_eq_self (h : ∀ c ∈ cs, isBlank c = false) : strip cs = cs := by
  have hreverse : ∀ c ∈ cs.reverse, isBlank c = false := fun c hc => h c (List.mem_reverse.mp hc)
  rw [strip, dropWhile_isBlank h, dropWhile_isBlank hreverse, List.reverse_reverse]

end Text

namespace ValueType

variable {size : Nat} {t : ValueType} {s : String}

def upperDigit (d : Nat) : Char :=
  (Nat.digitChar d).toUpper

theorem hexSize_eq (size : Nat) : hexSize size = (Text.hexDigits 3 size).map Char.toUpper := by
  rw [hexSize, Text.hexDigits, List.length_map, List.map_append, List.map_replicate]
  rfl

theorem exists_digits_hexSize (size : Nat) :
    ∃ ds, hexSize size = ds.map upperDigit ∧ (∀ d ∈ ds, d < 16) ∧
      Text.ofDigits 16 ds = size := by
  obtain ⟨ds, hds, hall, hvalue⟩ := Text.exists_hexDigits 3 size
  exact ⟨ds, by rw [hexSize_eq, hds, List.map_map]; rfl, hall, hvalue⟩

theorem length_hexSize (size : Nat) :
    (hexSize size).length = max 3 (Nat.toDigits 16 size).length := by
  rw [hexSize_eq, List.length_map, Text.length_hexDigits]

theorem length_hexSize_eq_three : (hexSize size).length = 3 ↔ size < 4096 := by
  have hdigits := Nat.length_toDigits_le_iff (b := 16) (n := size) (k := 3) (by decide) (by decide)
  rw [length_hexSize]
  omega

theorem exists_digit_of_mem_hexSize {c : Char} (hc : c ∈ hexSize size) :
    ∃ d : Fin 16, c = upperDigit d := by
  obtain ⟨ds, hds, hall, -⟩ := exists_digits_hexSize size
  rw [hds] at hc
  obtain ⟨d, hd, rfl⟩ := List.mem_map.mp hc
  exact ⟨⟨d, hall d hd⟩, rfl⟩

theorem strip_hexSize (size : Nat) : Text.strip ('C' :: hexSize size) = 'C' :: hexSize size := by
  have hdigit : ∀ d : Fin 16, Text.isBlank (upperDigit d) = false := by decide
  apply Text.strip_eq_self
  rw [List.forall_mem_cons]
  refine ⟨by decide, ?_⟩
  intro c hc
  obtain ⟨d, rfl⟩ := exists_digit_of_mem_hexSize hc
  exact hdigit d

theorem mapM_hexSize (size : Nat) :
    ((hexSize size).mapM Text.hexValue?).map (Text.ofDigits 16) = some size := by
  have hdigit : ∀ d : Fin 16, Text.hexValue? (upperDigit d) = some d.val := by decide
  obtain ⟨ds, hds, hall, hvalue⟩ := exists_digits_hexSize size
  rw [hds, Text.mapM_map_eq_some fun d hd => hdigit ⟨d, hall d hd⟩, Option.map_some, hvalue]

theorem hexSize?_of_lt (h : size < 4096) : hexSize? ('C' :: hexSize size) = some size := by
  obtain ⟨x, y, z, hxyz⟩ := List.length_eq_three.mp (length_hexSize_eq_three.mpr h)
  have hread := mapM_hexSize size
  rw [hxyz] at hread ⊢
  rw [hexSize?, if_pos (.inl rfl), hread]

theorem hexSize?_of_length {cs : List Char} (h : cs.length ≠ 4) : hexSize? cs = none := by
  unfold hexSize?
  split
  · exact absurd rfl h
  · rfl

theorem sizeDigits?_hexSize (size : Nat) : sizeDigits? ('C' :: hexSize size) = none := by
  have hdigit : ∀ d : Fin 16, (upperDigit d).toLower ≠ 'x' := by decide
  have hne : hexSize size ≠ [] := by
    apply List.ne_nil_of_length_pos
    rw [length_hexSize]
    omega
  obtain ⟨c, cs, hcs⟩ := List.exists_cons_of_ne_nil hne
  obtain ⟨d, rfl⟩ := exists_digit_of_mem_hexSize (hcs ▸ List.mem_cons_self)
  rw [sizeDigits?, hcs, if_neg]
  rw [List.take_succ_cons, List.take_succ_cons, List.map_cons, List.map_cons]
  intro heq
  exact hdigit d (List.cons.inj (List.cons.inj heq).2).1

theorem lookup_named_of_length (h : s.length ≠ 4) : named.lookup s = none := by
  have hnames : ∀ entry ∈ named, entry.1.length = 4 := by decide
  rw [List.lookup_eq_none_iff]
  intro entry hentry
  rw [bne_iff_ne]
  rintro rfl
  exact h (hnames entry hentry)

theorem ofName?_fixed_of_lt (h : size < 4096) : ofName? (fixed size).name = some (.fixed size) := by
  unfold ofName?
  simp only [name, String.toList_ofList, strip_hexSize, hexSize?_of_lt h]

theorem ofName?_fixed_of_le (h : 4096 ≤ size) : ofName? (fixed size).name = some .unknown := by
  have hlength : 3 < (hexSize size).length := by
    have hne := mt length_hexSize_eq_three.mp (Nat.not_lt.mpr h)
    rw [length_hexSize] at hne ⊢
    omega
  have hdigit : ∀ d : Fin 16, Text.upperAscii (upperDigit d) = [upperDigit d] := by decide
  have hself : ∀ c ∈ 'C' :: hexSize size, Text.upperAscii c = [c] := by
    rw [List.forall_mem_cons]
    refine ⟨by decide, ?_⟩
    intro c hc
    obtain ⟨d, rfl⟩ := exists_digit_of_mem_hexSize hc
    exact hdigit d
  have hupper : ('C' :: hexSize size).flatMap Text.upperAscii = 'C' :: hexSize size := by
    rw [List.flatMap_congr hself, List.flatMap_singleton']
  unfold ofName?
  simp only [name, String.toList_ofList, strip_hexSize, sizeDigits?_hexSize, hupper]
  rw [hexSize?_of_length (by rw [List.length_cons]; omega), lookup_named_of_length]
  · rfl
  · rw [String.length_ofList, List.length_cons]
    omega

def readBack : ValueType → ValueType
  | fixed size => if size < 4096 then fixed size else unknown
  | t => t

theorem readBack_eq_self_iff : t.readBack = t ↔ ∀ size, t = .fixed size → size < 4096 := by
  cases t <;> simp [readBack]

theorem ofName?_name (t : ValueType) : ofName? t.name = some t.readBack := by
  cases t with
  | integer type =>
    obtain ⟨width, signed⟩ := type
    cases width <;> cases signed <;> decide
  | fixed size =>
    rw [readBack]
    split
    case isTrue hsize => exact ofName?_fixed_of_lt hsize
    case isFalse hsize => exact ofName?_fixed_of_le (Nat.not_lt.mp hsize)
  | _ => decide

/-- The other spelling of a fixed text, with its size in decimal digits. -/
def decimalName (size : Nat) : String :=
  String.ofList (['C', 'x', 'x', 'x', '('] ++ (Nat.toDigits 10 size ++ [')']))

theorem sizeDigits?_decimal {cs : List Char} (h : cs ≠ []) :
    sizeDigits? (['C', 'x', 'x', 'x', '('] ++ (cs ++ [')'])) = cs.mapM Text.digitValue? := by
  have hfive : ['C', 'x', 'x', 'x', '('].length = 5 := rfl
  obtain ⟨digits, digit, rfl⟩ := (List.eq_nil_or_concat' cs).resolve_left h
  rw [sizeDigits?, List.take_left' hfive, List.drop_left' hfive, if_pos (by decide)]
  simp

theorem ofName?_decimalName (h : (Nat.toDigits 10 size).length ≤ Text.decimalLimit) :
    ofName? (decimalName size) = some (.fixed size) := by
  have hvalue : ∀ d : Fin 10, Text.digitValue? (Nat.digitChar d) = some d.val := by decide +kernel
  have hblank : ∀ d : Fin 10, Text.isBlank (Nat.digitChar d) = false := by decide
  have hmark : ∀ c ∈ ['C', 'x', 'x', 'x', '('], Text.isBlank c = false :=
    fun c hc => Bool.eq_false_iff.mpr (List.any_eq_false.mp (by decide) c hc)
  obtain ⟨ds, hds, hall, hsize, -⟩ := Text.exists_digits 10 (by decide) size
  have hread : (ds.map Nat.digitChar).mapM Text.digitValue? = some ds :=
    Text.mapM_map_eq_some fun d hd => hvalue ⟨d, hall d hd⟩
  have hstrip : Text.strip (['C', 'x', 'x', 'x', '('] ++ (Nat.toDigits 10 size ++ [')'])) =
      ['C', 'x', 'x', 'x', '('] ++ (Nat.toDigits 10 size ++ [')']) := by
    apply Text.strip_eq_self
    rw [List.forall_mem_append, List.forall_mem_append, List.forall_mem_singleton]
    refine ⟨hmark, ?_, by decide⟩
    intro c hc
    rw [hds] at hc
    obtain ⟨d, hd, rfl⟩ := List.mem_map.mp hc
    exact hblank ⟨d, hall d hd⟩
  have hcount : ds.length = (Nat.toDigits 10 size).length := by rw [hds, List.length_map]
  have hdecimal : Text.decimal? ds = some size := by
    rw [Text.decimal?, if_pos (hcount.trans_le h), hsize]
  have hlong : hexSize? (['C', 'x', 'x', 'x', '('] ++ (Nat.toDigits 10 size ++ [')'])) = none := by
    apply hexSize?_of_length
    simp
  unfold ofName?
  simp only [decimalName, String.toList_ofList, hstrip, hlong,
    sizeDigits?_decimal Nat.toDigits_ne_nil]
  simp only [hds, hread, hdecimal, Option.map_some]

theorem name_ne_empty (t : ValueType) : t.name ≠ "" := by
  cases t with
  | integer type =>
    obtain ⟨width, signed⟩ := type
    cases width <;> cases signed <;> decide
  | fixed size =>
    rw [name, Ne, String.ofList_eq_empty_iff]
    exact List.cons_ne_nil _ _
  | _ => decide

end ValueType

/-- The entry that is read from the listing of an entry. -/
def Entry.readBack (e : Entry) : Entry :=
  { e with type := e.type.readBack }

namespace TypeTemplate

variable {t : TypeTemplate} {types : List TypeTemplate} {parts : Document.Parts} {members : Members}

/-- The members of a listed type that have the same form in a template file. -/
def sharedMembers : List String :=
  ["name", "code", "template"]

def listedFile (types : List TypeTemplate) : Configuration where
  root := .ofJson (.obj [("types", .arr (types.map fun t =>
    .obj (sharedMembers.filterMap fun key => (t.listing.get? key).map (key, ·))))])

def listedMembers (e : Entry) : Members :=
  [(.text "name", .text e.name), (.text "type", .text e.type.name)]

theorem nameOf_text (parts : Document.Parts) (s : String) : nameOf parts (.text s) = .ok s :=
  nameOf_plain .text

theorem required_text {key place s : String} (h : Document.member? members key = some (.text s))
    (hs : s ≠ "") : required members key place = .ok (.text s) := by
  unfold required
  rw [h]
  simp [hs]

theorem elementsOf_list {key : String} {items : List Document}
    (h : Document.member? members key = some (.list items)) :
    elementsOf parts members key = .ok items := by
  unfold elementsOf
  rw [h]
  cases items <;> rfl

theorem entryOf_listed {entries : List Entry} {e : Entry} (hname : e.name ≠ "")
    (hnew : ∀ e' ∈ entries, e'.name ≠ e.name) (place : String) (index : Nat) :
    entryOf parts place entries (.map (listedMembers e), index) =
      .ok (entries ++ [e.readBack]) := by
  have hany : entries.any (·.name == e.name) = false := by simpa using hnew
  have hgivenName (place : String) :
      required (listedMembers e) "name" place = .ok (.text e.name) := required_text rfl hname
  have hgivenType (place : String) :
      required (listedMembers e) "type" place = .ok (.text e.type.name) :=
    required_text rfl e.type.name_ne_empty
  simp only [entryOf, membersOr, Document.whole, bind, Except.bind, hgivenName, hgivenType,
    nameOf_text, valueType, ValueType.ofName?_name, hany]
  rfl

theorem foldlM_listed {entries : List Entry} (all : List Entry)
    (hnames : ∀ e ∈ entries, e.name ≠ "") (hnew : HasDistinctEntries (all ++ entries))
    (place : String) (index : Nat) :
    ((entries.map fun e => .map (listedMembers e)).zipIdx index).foldlM (entryOf parts place)
        (all.map Entry.readBack) =
      .ok ((all ++ entries).map Entry.readBack) := by
  induction entries generalizing all index with
  | nil => rw [List.append_nil]; rfl
  | cons e entries ih =>
    obtain ⟨he, hnames⟩ := List.forall_mem_cons.mp hnames
    have hfresh : ∀ e' ∈ all.map Entry.readBack, e'.name ≠ e.name := by
      rw [HasDistinctEntries, List.map_append, List.nodup_append] at hnew
      rw [List.forall_mem_map]
      intro e' he'
      exact hnew.2.2 _ (List.mem_map_of_mem he') _ (List.mem_map_of_mem List.mem_cons_self)
    rw [List.append_cons] at hnew
    have hrest := ih (all ++ [e]) hnames hnew (index + 1)
    rw [List.map_append, List.map_singleton, ← List.append_cons] at hrest
    rw [List.map_cons, List.zipIdx_cons, List.foldlM_cons, entryOf_listed he hfresh]
    exact hrest

def listedType (t : TypeTemplate) : Members :=
  [(.text "name", .text t.name), (.text "code", .text t.code),
    (.text "template", .list (t.entries.map fun e => .map (listedMembers e)))]

theorem ofJson_ofString (s : String) : Document.ofJson (.ofString s) = .text s := by
  rw [Json.ofString, Document.ofJson, Text.toString_ofString]

theorem root_listedFile (types : List TypeTemplate) : (listedFile types).root =
    .map [(.text "types", .list (types.map fun t => .map (listedType t)))] := by
  have hshared (t : TypeTemplate) :
      (sharedMembers.filterMap fun key => (t.listing.get? key).map (key, ·)) =
        [("name", .ofString t.name), ("code", .ofString t.code),
          ("template", .arr (t.entries.map fun e =>
            .obj [("name", .ofString e.name), ("type", .ofString e.type.name)]))] := rfl
  simp only [listedFile, hshared, Document.ofJson, Document.ofJsonMembers, ofJson_ofString,
    Json.ofJsonItems_eq_map, List.map_map, Function.comp_def, listedType, listedMembers]

theorem ofMembers_listed (hname : t.name ≠ "") (hnames : ∀ e ∈ t.entries, e.name ≠ "")
    (hdistinct : HasDistinctEntries t.entries) (index : Nat) :
    ofMembers parts (listedType t) index =
      .ok { t with entries := t.entries.map Entry.readBack, fields := [] } := by
  have hgivenName (place : String) :
      required (listedType t) "name" place = .ok (.text t.name) := required_text rfl hname
  have hcode : Document.member? (listedType t) "code" = some (.text t.code) := rfl
  have hentries : elementsOf parts (listedType t) "template" =
      .ok (t.entries.map fun e => .map (listedMembers e)) := elementsOf_list rfl
  have hfields : elementsOf parts (listedType t) "fields" = .ok [] := rfl
  have hread (place : String) :
      (t.entries.map fun e => .map (listedMembers e)).zipIdx.foldlM (entryOf parts place) [] =
        .ok (t.entries.map Entry.readBack) := foldlM_listed [] hnames hdistinct place 0
  simp only [ofMembers, bind, Except.bind, hgivenName, nameOf_text, hcode, Option.getD_some,
    hentries, hfields, hread]
  rfl

theorem mapM_zipIdx_map {f : Document × Nat → Except Failure β} {g : α → Document}
    {r : α → β} {xs : List α} (hf : ∀ x ∈ xs, ∀ i, f (g x, i) = .ok (r x)) (i : Nat) :
    ((xs.map g).zipIdx i).mapM f = .ok (xs.map r) := by
  induction xs generalizing i with
  | nil => rfl
  | cons x xs ih =>
    obtain ⟨hx, hxs⟩ := List.forall_mem_cons.mp hf
    rw [List.map_cons, List.zipIdx_cons, List.mapM_cons, hx i, ih hxs (i + 1)]
    rfl

theorem loadTypes_name_ne_empty (h : loadTypes tree file = .ok types) (ht : t ∈ types) :
    t.name ≠ "" := by
  obtain ⟨parts, members, index, hmembers⟩ := exists_members_of_loadTypes h ht
  exact (ofMembers_eq_ok hmembers).1.name.ne_empty

theorem allOfConfiguration_listedFile (h : loadTypes tree file = .ok types) :
    allOfConfiguration (listedFile types) =
      .ok (types.map fun t =>
        { t with entries := t.entries.map Entry.readBack, fields := [] }) := by
  have hmembers : ∀ t ∈ types, ∀ i, ofMembers #[] (listedType t) i =
      .ok { t with entries := t.entries.map Entry.readBack, fields := [] } := by
    intro t ht i
    exact ofMembers_listed (loadTypes_name_ne_empty h ht) (loadTypes_named h ht)
      (loadTypes_distinct h ht) i
  rw [allOfConfiguration, root_listedFile]
  exact mapM_zipIdx_map (g := fun t => .map (listedType t)) hmembers 0

theorem map_readBack_eq_self_iff {entries : List Entry} : entries.map Entry.readBack = entries ↔
    ∀ e ∈ entries, ∀ size, e.type = .fixed size → size < 4096 := by
  have hentry (e : Entry) : e.readBack = e ↔ ∀ size, e.type = .fixed size → size < 4096 := by
    rw [← ValueType.readBack_eq_self_iff]
    obtain ⟨name, type⟩ := e
    simp [Entry.readBack]
  induction entries with
  | nil => simp
  | cons e entries ih =>
    simp only [List.map_cons, List.cons.injEq, ih, hentry, List.forall_mem_cons]

end TypeTemplate

/-- The name of a type is read as the type again, except that the name of a fixed text of 4096 bytes
or more, which only the other spelling can give, is that of no type. So listed types, too, are read
as they were but for such entries. -/
theorem ValueType.name_reads_back_iff (s : String) (tree : FileTree) (file : Path) :
    (((ofName? s).bind fun t => ofName? t.name) = ofName? s ↔
      ∀ size, ofName? s = some (.fixed size) → size < 4096) ∧
    (∀ size, 4096 ≤ size → ofName? (fixed size).name = some .unknown) ∧
    (∀ size, (Nat.toDigits 10 size).length ≤ Text.decimalLimit →
      ofName? (decimalName size) = some (.fixed size)) ∧
    ∀ types, loadTypes tree file = .ok types →
      TypeTemplate.allOfConfiguration (TypeTemplate.listedFile types) =
        .ok (types.map fun t => { t with entries := t.entries.map Entry.readBack, fields := [] }) ∧
      ∀ t ∈ types, t.entries.map Entry.readBack = t.entries ↔
        ∀ e ∈ t.entries, ∀ size, e.type = .fixed size → size < 4096 := by
  refine ⟨?_, fun size => ofName?_fixed_of_le, fun size => ofName?_decimalName, ?_⟩
  · cases ofName? s with
    | none => simp
    | some t => rw [Option.bind_some, ofName?_name, Option.some.injEq, readBack_eq_self_iff]; simp
  · intro types h
    refine ⟨TypeTemplate.allOfConfiguration_listedFile h, ?_⟩
    intro t _
    exact TypeTemplate.map_readBack_eq_self_iff

theorem ValueType.name_reads_back_sample :
    ((ofName? "c0FF").bind fun t => ofName? t.name) = ofName? "c0FF" ∧
      ofName? (fixed 65536).name = some .unknown ∧
      ofName? (decimalName 65536) = some (.fixed 65536) ∧
      TypeTemplate.allOfConfiguration (TypeTemplate.listedFile [Sample.note]) =
        .ok [{ Sample.note with fields := [] }] := by
  have hname : ofName? "c0FF" = some (.fixed 255) := by decide +kernel
  obtain ⟨hback, hwide, hdecimal, hlisted⟩ :=
    name_reads_back_iff "c0FF" Sample.tree (Path.ofString "note.json")
  refine ⟨hback.mpr ?_, hwide _ (by decide), hdecimal _ (by decide), ?_⟩
  · intro size hsize
    cases hname.symm.trans hsize
    decide
  · exact (hlisted _ Sample.loadTypes_tree).1

/-- A size of four hexadecimal digits is not read from the name that shows it. -/
theorem ValueType.name_of_wide_text :
    ofName? "Cxxx(4096)" = some (.fixed 4096) ∧ (fixed 4096).name = "C1000" ∧
      ofName? "C1000" = some .unknown := by
  decide +kernel

end ResourceScript
