import ResourceScript.Proofs.Fields

namespace ResourceScript

variable {type : ValueType} {b : Bytes} {a : Assignment} {slot : Slot} {s s' : Session} {c : Cursor}
  {d : Directive} {draft : Draft} {id : Int} {name : Option Text} {values : List (String × Value)}

namespace ValueType

/-- The types of texts. Raw bytes are none. -/
def isText : ValueType → Bool
  | pascal | terminated | fixed _ => true
  | _ => false

/-- What is read of a text: all of it, or the part in front of its first zero byte. -/
def readable (type : ValueType) (b : Bytes) : Bytes :=
  if type.endsAtZero then b.takeWhile (· != 0) else b

theorem takeWhile_append_of_neg {p : α → Bool} {x : α} (hx : p x = false) (xs ys : List α) :
    (xs ++ x :: ys).takeWhile p = xs.takeWhile p := by
  induction xs with
  | nil => rw [List.nil_append, List.takeWhile_cons_of_neg (by simp [hx]), List.takeWhile_nil]
  | cons y xs ih => rw [List.cons_append, List.takeWhile_cons, List.takeWhile_cons, ih]

theorem read_encode_text (htext : type.isText) (ha : (Value.bytes b).Admissible type) :
    ∃ used : Nat, used ≤ (type.encode (.bytes b)).length ∧
      type.read (type.encode (.bytes b)) 0 = .ok (.bytes (type.readable b), used) := by
  cases type with
  | pascal =>
    have hread := read_encode ha nofun (s := []) nofun []
    rw [List.append_nil, List.nil_append] at hread
    exact ⟨_, Nat.le_refl _, hread⟩
  | terminated =>
    have hread : (b ++ [0]).takeWhile (· != 0) = b.takeWhile (· != 0) :=
      takeWhile_append_of_neg rfl b []
    have hle : (b.takeWhile (· != 0)).length ≤ b.length := (List.takeWhile_prefix _).length_le
    have he : encode .terminated (.bytes b) = b ++ [0] := rfl
    refine ⟨(b.takeWhile (· != 0)).length + 1, ?_, ?_⟩
    · simpa [he] using hle
    · simp [read, he, hread, readable, endsAtZero, Nat.lt_succ_of_le hle]
  | fixed size =>
    have hl : (encode (.fixed size) (.bytes b)).length = size := length_encode ha rfl
    have hread : (encode (.fixed size) (.bytes b)).takeWhile (· != 0) = b.takeWhile (· != 0) := by
      change (b ++ List.replicate (size - b.length) 0).takeWhile (· != 0) = _
      cases size - b.length with
      | zero => rw [List.replicate_zero, List.append_nil]
      | succ n => exact takeWhile_append_of_neg rfl b _
    refine ⟨size, Nat.le_of_eq hl.symm, ?_⟩
    simp only [read, List.drop_zero, List.take_of_length_le (Nat.le_of_eq hl), hl, if_true, hread]
    rfl
  | _ => cases htext

/-- A text is read in full, and all of its bytes are, exactly if its reader does not stop inside it.
-/
theorem read_encode_text_iff (ha : (Value.bytes b).Admissible type) :
    type.read (type.encode (.bytes b)) 0 = .ok (.bytes b, (type.encode (.bytes b)).length) ↔
      (type.endsAtZero → 0 ∉ b) := by
  constructor
  · intro h hz
    exact zero_not_mem_of_read hz h
  · intro h
    have hz (he : type.endsAtZero = true) (b' : Bytes) (hb : Value.bytes b = .bytes b') : 0 ∉ b' :=
      Value.bytes.inj hb ▸ h he
    have hread := read_encode ha hz (s := []) (fun _ => rfl) []
    rwa [List.append_nil, List.nil_append] at hread

end ValueType

theorem Value.exists_bytes_of_isText {v : Value} (htext : type.isText) (ha : v.Admissible type) :
    ∃ b, v = .bytes b := by
  match v, type, htext, ha with
  | .bytes b, .pascal, _, _ => exact ⟨b, rfl⟩
  | .bytes b, .terminated, _, _ => exact ⟨b, rfl⟩
  | .bytes b, .fixed _, _, _ => exact ⟨b, rfl⟩

namespace Assignment

theorem exists_store_iff (hf : a.field ∈ a.type.fields) (hslot : slot ∈ a.field.slots)
    (htext : (a.typeOf slot).isText) :
    (∃ s', s'.cursor = c ∧ a.store d (a.type.draft id name values) slot s = .ok draft s') ↔
      ∃ ts b, s.cursor.Moves ts c ∧
        Grammar.SlotValue a.settings a.type a.field slot d ts (.bytes b) ∧
        (∀ limit, (a.typeOf slot).textLimit? = some limit → b.length ≤ limit) ∧
        slot.name ∉ values.map (·.1) ∧
        draft = a.type.draft id name (values ++ [(slot.name, .bytes b)]) := by
  constructor
  · rintro ⟨s', rfl, h⟩
    obtain ⟨ts, v, hm, hv, ha, hn, rfl⟩ := (ends_store hf hslot (List.suffix_refl _)).of_ok h
    obtain ⟨b, rfl⟩ := v.exists_bytes_of_isText htext ha
    exact ⟨ts, b, hm.cursor, hv, (fit_eq_ok.mp (fit_of_admissible (a := a) ha)).2, hn, rfl⟩
  · rintro ⟨ts, b, hm, hv, hlimit, hn, rfl⟩
    have hbytes : (a.typeOf slot).holdsBytes := by
      cases htype : a.typeOf slot <;> simp_all [ValueType.isText, ValueType.holdsBytes]
    have ha := (admissible_of_fit (a := a) hbytes (fit_eq_ok.mpr ⟨rfl, hlimit⟩)).2
    have hmask (hd : d = .bitmask) : c.peek.kind = .semicolon := by
      subst hd
      cases hv
    obtain ⟨journal, hj⟩ := store_of_moves hm hv ha hmask hn id name
    exact ⟨_, rfl, hj⟩

/-- A text that a slot has taken is read back as what stands in front of a zero byte at which its
reader stops; so it is read back in full, and all that was stored is used up, exactly if there is no
such byte. -/
theorem text_reads_back_iff (hf : a.field ∈ a.type.fields) (hslot : slot ∈ a.field.slots)
    (htext : (a.typeOf slot).isText)
    (h : a.store d (a.type.draft id name values) slot s = .ok draft s') :
    ∃ ts b stored, s.cursor.Moves ts s'.cursor ∧
      Grammar.SlotValue a.settings a.type a.field slot d ts (.bytes b) ∧
      draft.written = (a.type.draft id name values).written ++ [(slot.name, stored)] ∧
      (∃ used : Nat, used ≤ stored.length ∧
        (a.typeOf slot).read stored 0 = .ok (.bytes ((a.typeOf slot).readable b), used)) ∧
      ((a.typeOf slot).read stored 0 = .ok (.bytes b, stored.length) ↔
        ((a.typeOf slot).endsAtZero → 0 ∉ b)) := by
  obtain ⟨ts, v, hm, hv, ha, -, rfl⟩ := (ends_store hf hslot (List.suffix_refl _)).of_ok h
  obtain ⟨b, rfl⟩ := v.exists_bytes_of_isText htext ha
  refine ⟨ts, b, (a.typeOf slot).encode (.bytes b), hm.cursor, hv, ?_,
    ValueType.read_encode_text htext ha, ValueType.read_encode_text_iff ha⟩
  simp only [TypeTemplate.draft, List.map_append, List.map_cons, List.map_nil]
  rfl

end Assignment

namespace Sample

def labelling : Assignment where
  settings
  type := note
  field := { name := "label", first := label }
  name := tokenOf .identifier "label"

def zeroInside : Token :=
  tokenOf (.string (Text.ofString "a\x00b"))

def labelSession : Session :=
  { session with cursor := { session.cursor with rest := [zeroInside] } }

end Sample

theorem Assignment.text_reads_back_sample :
    ∃ s', Sample.labelling.store .positional (Sample.note.draft 200 none []) Sample.label
        Sample.labelSession = .ok (Sample.note.draft 200 none [("label", .bytes [97, 0, 98])]) s' ∧
      ∃ ts b stored, Sample.labelSession.cursor.Moves ts s'.cursor ∧
        Grammar.SlotValue Sample.settings Sample.note Sample.labelling.field Sample.label
          .positional
          ts (.bytes b) ∧
        [("label", [97, 0, 98, 0])] = [("label", stored)] ∧
        (∃ used : Nat, used ≤ stored.length ∧
          ValueType.terminated.read stored 0 = .ok (.bytes (b.takeWhile (· != 0)), used)) ∧
        (ValueType.terminated.read stored 0 = .ok (.bytes b, stored.length) ↔ (true → 0 ∉ b)) := by
  have hf : Sample.labelling.field ∈ Sample.labelling.type.fields := by decide
  have hslot : Sample.label ∈ Sample.labelling.field.slots := List.mem_cons_self
  have hvalue : Grammar.SlotValue Sample.settings Sample.note Sample.labelling.field Sample.label
      .positional [Sample.zeroInside] (.bytes [97, 0, 98]) :=
    .string rfl (by decide +kernel) (by decide)
  obtain ⟨s', -, h⟩ : ∃ s', s'.cursor = _ ∧ Sample.labelling.store .positional
      (Sample.labelling.type.draft 200 none []) Sample.label Sample.labelSession = .ok _ s' :=
    (exists_store_iff hf hslot rfl).mpr
      ⟨_, _, Sample.labelSession.cursor.moves_rest, hvalue, nofun, List.not_mem_nil, rfl⟩
  exact ⟨s', h, text_reads_back_iff hf hslot rfl h⟩

/-- A text with a zero byte inside is taken and cut. -/
theorem compile_text_cut :
    (compile Sample.settings Sample.registry "new (#200) \x7b label = \"a\\0b\"; \x7d").result =
        .ok [Sample.note.resource 200 none [("label", .bytes [97, 0, 98])]] ∧
      ValueType.terminated.encode (.bytes [97, 0, 98]) = [97, 0, 98, 0] ∧
      ValueType.terminated.read [97, 0, 98, 0] 0 = .ok (.bytes [97], 2) := by
  decide +kernel

end ResourceScript
