import ResourceScript.Proofs.Inspecting

namespace ResourceScript

def Bytes.blanked : Bytes → Bytes
  | [] => []
  | x :: b => if x = 0 then List.replicate (b.length + 1) 0 else x :: blanked b

/-- The bytes that are written for the value that a type reads from given ones. -/
def ValueType.settle : ValueType → Bytes → Bytes
  | fixed _, b => b.blanked
  | _, b => b

namespace Entry

/-- The byte at `i` is behind a zero byte of the entry at an offset, which is a text of fixed size.
-/
def Pads (e : Entry) (data : Bytes) (offset i : Nat) : Prop :=
  ∃ size, e.type = .fixed size ∧ i < offset + size ∧ ∃ j, offset ≤ j ∧ j < i ∧ data[j]? = some 0

def writeAll : List Entry → List Value → Except Fault Bytes
  | e :: es, v :: vs => do
    let w ← e.type.write v
    let rest ← writeAll es vs
    return w.bytes ++ rest
  | _, _ => .ok []

end Entry

/-- Bytes that are the data from an offset on, but for zeros at the places in `pads`. -/
structure Rewrites (pads : Nat → Prop) (data : Bytes) (offset : Nat) (b : Bytes) : Prop where
  pad : i < b.length → pads (offset + i) → b[i]? = some 0
  kept : i < b.length → ¬pads (offset + i) → b[i]? = data[offset + i]?

namespace Decoded

def values (d : Decoded) : List Value :=
  d.entries.map (·.value)

/-- The byte at `i` is behind a zero byte of a text of fixed size. -/
def Pads (d : Decoded) (t : TypeTemplate) (data : Bytes) (i : Nat) : Prop :=
  ∃ p ∈ t.entries.zip d.entries, p.1.Pads data p.2.offset i

/-- Behind the first zero byte of a text of fixed size there are only zero bytes. -/
def IsTidy (d : Decoded) (t : TypeTemplate) (data : Bytes) : Prop :=
  ∀ i, d.Pads t data i → data[i]? = some 0

end Decoded

variable {type : ValueType} {data b b' : Bytes} {offset stop i j n : Nat} {e : Entry} {v : Value}
  {used : Int} {es : List Entry} {xs : List DecodedEntry} {pads pads' : Nat → Prop}
  {t : TypeTemplate} {d : Decoded}

namespace Bytes

theorem blanked_eq (b : Bytes) : b.blanked =
    b.takeWhile (· != 0) ++ List.replicate (b.length - (b.takeWhile (· != 0)).length) 0 := by
  induction b with
  | nil => rfl
  | cons x b ih =>
    rw [blanked]
    by_cases hx : x = 0
    · simp [hx]
    · simp [hx, ih]

theorem length_blanked (b : Bytes) : b.blanked.length = b.length := by
  induction b with
  | nil => rfl
  | cons x b ih =>
    rw [blanked]
    split
    · exact List.length_replicate
    · rw [List.length_cons, List.length_cons, ih]

theorem getElem?_blanked_of_zero (hi : i < b.length) (hj : j < i) (hz : b[j]? = some 0) :
    b.blanked[i]? = some 0 := by
  induction b generalizing i j with
  | nil => simp at hi
  | cons x b ih =>
    rw [blanked]
    split
    case isTrue => exact List.getElem?_replicate_of_lt hi
    case isFalse hx =>
      cases j with
      | zero => exact absurd (Option.some.inj hz) hx
      | succ j =>
        obtain ⟨i, rfl⟩ := Nat.exists_eq_add_of_lt hj
        exact ih (by simpa using hi) (by omega) hz

theorem getElem?_blanked (hz : ∀ j < i, b[j]? ≠ some 0) : b.blanked[i]? = b[i]? := by
  induction b generalizing i with
  | nil => rfl
  | cons x b ih =>
    rw [blanked]
    split
    case isTrue hx =>
      cases i with
      | zero => simp [hx]
      | succ i => exact absurd (congrArg some hx) (hz 0 (Nat.succ_pos i))
    case isFalse =>
      cases i with
      | zero => rfl
      | succ i => exact ih fun j hj => hz (j + 1) (Nat.succ_lt_succ hj)

end Bytes

namespace ValueType

theorem length_settle (type : ValueType) (b : Bytes) : (type.settle b).length = b.length := by
  cases type with
  | fixed size => exact b.length_blanked
  | _ => rfl

theorem flatten_components (h : b.length = 8) :
    b.take 2 ++ ((b.drop 2).take 2 ++ ((b.drop 4).take 2 ++ (b.drop 6).take 2)) = b := by
  have hlast : (b.drop 6).take 2 = b.drop 6 :=
    List.take_of_length_le (by rw [List.length_drop, h])
  have hjoin (m : Nat) : (b.drop m).take 2 ++ b.drop (m + 2) = b.drop m := by
    rw [← List.drop_drop]
    exact List.take_append_drop 2 (b.drop m)
  rw [hlast, hjoin 4, hjoin 2]
  exact List.take_append_drop 2 b

theorem encode_components (h : b.length = 8) :
    let component (i : Nat) : Int := IntegerType.component.unpack ((b.drop (2 * i)).take 2)
    let v : Value := .rectangle [component 0, component 1, component 2, component 3]
    v.Admissible .rectangle ∧ encode .rectangle v = b := by
  intro component v
  have hwidth (i : Nat) (hi : i < 4) :
      ((b.drop (2 * i)).take 2).length = IntegerType.component.width.bytes := by
    rw [List.length_take, List.length_drop, h]
    change min 2 (8 - 2 * i) = 2
    omega
  have hadmissible : v.Admissible .rectangle := by
    refine ⟨rfl, ?_⟩
    simp only [List.mem_cons, List.not_mem_nil, or_false, forall_eq_or_imp, forall_eq]
    exact ⟨IntegerType.holds_unpack (hwidth 0 (by decide)),
      IntegerType.holds_unpack (hwidth 1 (by decide)),
      IntegerType.holds_unpack (hwidth 2 (by decide)),
      IntegerType.holds_unpack (hwidth 3 (by decide))⟩
  refine ⟨hadmissible, ?_⟩
  have hbytes (i : Nat) (hi : i < 4) :
      IntegerType.component.bytesOf (component i) = (b.drop (2 * i)).take 2 :=
    IntegerType.bytesOf_unpack (hwidth i hi)
  rw [encode_rectangle hadmissible]
  simp only [List.flatMap_cons, List.flatMap_nil, List.append_nil]
  rw [hbytes 0 (by decide), hbytes 1 (by decide), hbytes 2 (by decide), hbytes 3 (by decide)]
  exact flatten_components h

theorem takeWhile_append_cons (h : (b.takeWhile (· != 0)).length < b.length) :
    ∃ rest, b = b.takeWhile (· != 0) ++ 0 :: rest := by
  cases hdrop : b.dropWhile (· != 0) with
  | nil =>
    have hsplit := List.takeWhile_append_dropWhile (p := (· != 0)) (l := b)
    rw [hdrop, List.append_nil] at hsplit
    rw [hsplit] at h
    exact absurd h (Nat.lt_irrefl _)
  | cons x rest =>
    have hx := List.head?_dropWhile_not (· != 0) b
    rw [hdrop] at hx
    obtain rfl : x = 0 := by simpa using hx
    exact ⟨rest, by rw [← hdrop, List.takeWhile_append_dropWhile]⟩

theorem encode_counted {length : UInt8} (h : length.toNat ≤ b.length) :
    let v : Value := .bytes (b.take length.toNat)
    v.Admissible .pascal ∧ encode .pascal v = (length :: b).take (length.toNat + 1) := by
  intro v
  have hcontent : (b.take length.toNat).length = length.toNat := by
    rw [List.length_take, Nat.min_eq_left h]
  have hadmissible : v.Admissible .pascal := by
    have hlength := length.toNat_lt
    change (b.take length.toNat).length ≤ 255
    omega
  refine ⟨hadmissible, ?_⟩
  rw [encode_pascal hadmissible, hcontent, UInt8.ofNat_toNat]
  rfl

theorem encode_up_to_zero (h : (b.takeWhile (· != 0)).length < b.length) :
    encode .terminated (.bytes (b.takeWhile (· != 0))) =
      b.take ((b.takeWhile (· != 0)).length + 1) := by
  obtain ⟨rest, hrest⟩ := takeWhile_append_cons h
  generalize b.takeWhile (· != 0) = kept at hrest ⊢
  rw [hrest]
  change kept ++ [0] = (kept ++ 0 :: rest).take (kept.length + 1)
  rw [List.take_length_add_append]
  rfl

theorem encode_blanked (b : Bytes) :
    let v : Value := .bytes (b.takeWhile (· != 0))
    v.Admissible (.fixed b.length) ∧ encode (.fixed b.length) v = b.blanked :=
  ⟨(List.takeWhile_prefix (l := b) (· != 0)).length_le, b.blanked_eq.symm⟩

/-- What is read at a place is admissible and is written as the bytes that it was read from,
settled. -/
theorem encode_of_read (ho : offset ≤ data.length) (h : type.read data offset = .ok (v, used)) :
    v.Admissible type ∧ type.encode v = type.settle ((data.drop offset).take used.toNat) := by
  cases type with
  | integer i =>
    obtain ⟨b, hb, h⟩ := Except.bind_eq_ok.mp h
    obtain ⟨hlen, rfl⟩ := slice_eq_ok.mp hb
    cases h
    have hwidth : ((data.drop offset).take i.width.bytes).length = i.width.bytes := by
      rw [List.length_take, List.length_drop]
      omega
    have hholds := IntegerType.holds_unpack hwidth
    exact ⟨hholds, (encode_integer hholds).trans (IntegerType.bytesOf_unpack hwidth)⟩
  | rectangle =>
    obtain ⟨b, hb, h⟩ := Except.bind_eq_ok.mp h
    obtain ⟨hlen, rfl⟩ := slice_eq_ok.mp hb
    cases h
    apply encode_components
    rw [List.length_take, List.length_drop]
    omega
  | pascal =>
    simp only [read] at h
    split at h
    · cases h
    case h_2 length tail hrest =>
      split at h
      · cases h
      case isFalse hlt =>
        cases h
        have hused : (1 + (length.toNat : Int)).toNat = length.toNat + 1 := by omega
        rw [hrest, hused]
        exact encode_counted (Nat.le_of_not_lt hlt)
  | terminated =>
    simp only [read] at h
    split at h
    case isTrue hlt =>
      cases h
      exact ⟨trivial, encode_up_to_zero hlt⟩
    · cases h
  | fixed size =>
    simp only [read] at h
    split at h
    case isTrue hlen =>
      cases h
      have hblanked := encode_blanked ((data.drop offset).take size)
      rwa [hlen] at hblanked
    · cases h
  | raw =>
    cases h
    refine ⟨trivial, ?_⟩
    have hused : ((data.length : Int) - offset).toNat = (data.drop offset).length := by
      rw [List.length_drop]
      omega
    rw [hused, List.take_length]
    rfl
  | unknown => cases h

end ValueType

namespace Rewrites

theorem congr (h : Rewrites pads data offset b)
    (hpads : ∀ i, offset ≤ i → i < offset + b.length → (pads' i ↔ pads i)) :
    Rewrites pads' data offset b := by
  have hshift {i : Nat} (hi : i < b.length) : pads' (offset + i) ↔ pads (offset + i) :=
    hpads (offset + i) (Nat.le_add_right _ _) (Nat.add_lt_add_left hi _)
  constructor
  · intro i hi hp
    exact h.pad hi ((hshift hi).mp hp)
  · intro i hi hp
    exact h.kept hi fun hp' => hp ((hshift hi).mpr hp')

theorem append (h : Rewrites pads data offset b) (h' : Rewrites pads data (offset + b.length) b') :
    Rewrites pads data offset (b ++ b') := by
  have hlater {i : Nat} (hi : b.length ≤ i) :
      offset + b.length + (i - b.length) = offset + i := by omega
  constructor
  · intro i hi hp
    rw [List.length_append] at hi
    by_cases hlt : i < b.length
    · rw [List.getElem?_append_left hlt]
      exact h.pad hlt hp
    · rw [List.getElem?_append_right (Nat.le_of_not_lt hlt)]
      exact h'.pad (by omega) (hlater (Nat.le_of_not_lt hlt) ▸ hp)
  · intro i hi hp
    rw [List.length_append] at hi
    by_cases hlt : i < b.length
    · rw [List.getElem?_append_left hlt]
      exact h.kept hlt hp
    · have heq := hlater (Nat.le_of_not_lt hlt)
      rw [List.getElem?_append_right (Nat.le_of_not_lt hlt), ← heq]
      exact h'.kept (by omega) (heq.symm ▸ hp)

theorem eq_take (h : Rewrites pads data 0 b)
    (htidy : ∀ i, pads i → data[i]? = some 0) : b = data.take b.length := by
  apply List.ext_getElem?
  intro i
  by_cases hi : i < b.length
  · rw [List.getElem?_take_of_lt hi]
    by_cases hp : pads i
    · rw [htidy i hp]
      exact h.pad hi (by rwa [Nat.zero_add])
    · have hkept := h.kept hi (by rwa [Nat.zero_add])
      rwa [Nat.zero_add] at hkept
  · rw [List.getElem?_eq_none (by omega), List.getElem?_eq_none (by simp; omega)]

end Rewrites

namespace Entry

theorem getElem?_slice (hi : i < n) : ((data.drop offset).take n)[i]? = data[offset + i]? := by
  rw [List.getElem?_take_of_lt hi, List.getElem?_drop]

theorem rewrites_blanked (hfixed : e.type = .fixed n) (hn : offset + n ≤ data.length) :
    Rewrites (e.Pads data offset) data offset (Bytes.blanked ((data.drop offset).take n)) := by
  have hlen : ((data.drop offset).take n).length = n := by
    rw [List.length_take, List.length_drop]
    omega
  constructor
  · rintro i hi ⟨size, hsize, hlt, j, hj, hji, hzero⟩
    rw [Bytes.length_blanked] at hi
    have hin : j - offset < n := by omega
    apply Bytes.getElem?_blanked_of_zero (j := j - offset) hi (by omega)
    rwa [getElem?_slice hin, Nat.add_sub_cancel' hj]
  · intro i hi hp
    rw [Bytes.length_blanked, hlen] at hi
    rw [Bytes.getElem?_blanked, getElem?_slice hi]
    intro j hj hzero
    rw [getElem?_slice (by omega)] at hzero
    exact hp ⟨n, hfixed, by omega, offset + j, by omega, by omega, hzero⟩

theorem rewrites_slice (hfixed : ∀ size, e.type ≠ .fixed size) :
    Rewrites (e.Pads data offset) data offset ((data.drop offset).take n) := by
  constructor
  · rintro i hi ⟨size, hsize, -⟩
    exact absurd hsize (hfixed size)
  · intro i hi _
    rw [List.length_take] at hi
    exact getElem?_slice (by omega)

theorem size_of_read (h : e.type.read data offset = .ok (v, (n : Int)))
    (hn : offset + n ≤ data.length) (hs : e.type.size? = some size) : size = n := by
  obtain ⟨hadmissible, hencode⟩ := ValueType.encode_of_read (by omega) h
  have hlen := congrArg List.length hencode
  rw [ValueType.length_encode hadmissible hs, ValueType.length_settle, Int.toNat_natCast,
    List.length_take, List.length_drop] at hlen
  omega

/-- The value that is read for an entry is written as the bytes it was read from, with zeros for its
padding. -/
theorem write_of_read (h : e.type.read data offset = .ok (v, (n : Int)))
    (hn : offset + n ≤ data.length) :
    ∃ w, e.type.write v = .ok w ∧ w.bytes.length = n ∧
      Rewrites (e.Pads data offset) data offset w.bytes := by
  obtain ⟨hadmissible, hencode⟩ := ValueType.encode_of_read (by omega) h
  rw [Int.toNat_natCast] at hencode
  refine ⟨_, ValueType.write_of_admissible hadmissible, ?_, ?_⟩
  · rw [hencode, ValueType.length_settle, List.length_take, List.length_drop]
    omega
  · rw [hencode]
    cases htype : e.type with
    | fixed size =>
      obtain rfl := size_of_read h hn (by rw [htype]; rfl)
      exact rewrites_blanked htype hn
    | _ => exact rewrites_slice (by rw [htype]; nofun)

theorem Reads.le_offset (h : Reads data offset es xs stop) : ∀ x ∈ xs, offset ≤ x.offset := by
  induction h with
  | nil => exact List.forall_mem_nil _
  | cons _ _ _ ih =>
    rw [List.forall_mem_cons]
    exact ⟨Nat.le_refl _, fun x hx => Nat.le_trans (Nat.le_add_right _ _) (ih x hx)⟩

theorem Reads.exists_writeAll (h : Reads data offset es xs stop) :
    ∃ b, writeAll es (xs.map (·.value)) = .ok b ∧ offset + b.length = stop ∧
      Rewrites (fun i => ∃ p ∈ es.zip xs, p.1.Pads data p.2.offset i) data offset b := by
  induction h with
  | nil => exact ⟨[], rfl, rfl, ⟨nofun, nofun⟩⟩
  | @cons offset v es xs stop e used hread hn hrest ih =>
    obtain ⟨w, hw, hlen, hrewrites⟩ := write_of_read hread hn
    obtain ⟨b, hb, hstop, hmore⟩ := ih
    refine ⟨w.bytes ++ b, ?_, ?_, ?_⟩
    · rw [List.map_cons, writeAll, hw, hb]
      rfl
    · rw [List.length_append]
      omega
    · simp only [List.zip_cons_cons, List.exists_mem_cons_iff]
      apply Rewrites.append
      · apply hrewrites.congr
        intro i _ hi
        -- The texts behind this entry have their zero bytes behind it, too.
        apply or_iff_left
        rintro ⟨p, hp, size, -, -, j, hj, hji, -⟩
        have hle := hrest.le_offset p.2 (List.of_mem_zip hp).2
        omega
      · rw [hlen]
        apply hmore.congr
        intro i hi _
        apply or_iff_right
        rintro ⟨size, hfixed, hlt, -⟩
        have hsize := size_of_read hread hn (by rw [hfixed]; rfl)
        omega

end Entry

/-- Values that were decoded from any bytes can be written, and that gives the bytes they were
decoded from, but for zeros behind the first zero byte of each text of fixed size. So bytes that
have only zeros there are given back, and they are the only such bytes with these values. -/
theorem TypeTemplate.writeAll_of_decode (h : t.decode data = .ok d) :
    (∃ b, Entry.writeAll t.entries d.values = .ok b ∧ b.length = d.consumed ∧
      (∀ i < d.consumed, (d.Pads t data i → b[i]? = some 0) ∧
        (¬d.Pads t data i → b[i]? = data[i]?)) ∧
      (d.IsTidy t data → b = data.take d.consumed)) ∧
    ∀ data' d', t.decode data' = .ok d' → d'.values = d.values →
      d.IsTidy t data → d'.IsTidy t data' → data'.take d'.consumed = data.take d.consumed := by
  have hwrites {data : Bytes} {d : Decoded} (h : t.decode data = .ok d) :
      ∃ b, Entry.writeAll t.entries d.values = .ok b ∧ b.length = d.consumed ∧
        Rewrites (d.Pads t data) data 0 b ∧ (d.IsTidy t data → b = data.take d.consumed) := by
    have hreads := Entry.reads_of_decodeAll (Nat.zero_le _) h
    obtain ⟨b, hb, hlen, hrewrites⟩ := hreads.exists_writeAll
    rw [Nat.zero_add] at hlen
    refine ⟨b, hb, hlen, hrewrites, fun htidy => ?_⟩
    rw [← hlen]
    exact hrewrites.eq_take htidy
  obtain ⟨b, hb, hlen, hrewrites, htidy⟩ := hwrites h
  refine ⟨⟨b, hb, hlen, fun i hi => ?_, htidy⟩, fun data' d' h' hvalues ht ht' => ?_⟩
  · rw [← hlen] at hi
    have hpad := hrewrites.pad hi
    have hkept := hrewrites.kept hi
    rw [Nat.zero_add] at hpad hkept
    exact ⟨hpad, hkept⟩
  · obtain ⟨b', hb', -, -, htidy'⟩ := hwrites h'
    rw [hvalues, hb] at hb'
    rw [← htidy ht, ← htidy' ht']
    exact (Except.ok.inj hb').symm

namespace Sample

/-- A type with a text of fixed size in front of a number. -/
def tag : TypeTemplate where
  name := "Tag"
  code := "Tag"
  entries := [⟨"label", .fixed 3⟩, ⟨"rank", .integer ⟨.two, true⟩⟩]
  fields := []

def tagged : Decoded where
  entries := [⟨"label", 0, .bytes [65]⟩, ⟨"rank", 3, .integer (-2)⟩]
  consumed := 5

theorem tagged_isTidy {data : Bytes} (h : data[0]? = some 65) (hz : data[2]? = some 0) :
    tagged.IsTidy tag data := by
  rintro i ⟨p, hp, size, hsize, hlt, j, -, hji, hzero⟩
  rcases List.mem_cons.mp hp with rfl | hp
  · cases hsize
    have hi : i < 3 := by simpa using hlt
    have hj : j ≠ 0 := by
      rintro rfl
      rw [h] at hzero
      cases hzero
    obtain rfl : i = 2 := by omega
    exact hz
  · rw [List.mem_singleton.mp hp] at hsize
    cases hsize

end Sample

theorem TypeTemplate.writeAll_of_decode_sample :
    Sample.tag.decode [65, 0, 9, 255, 254, 1] = .ok Sample.tagged ∧
      (∃ b, Entry.writeAll Sample.tag.entries Sample.tagged.values = .ok b ∧ b.length = 5 ∧
        b[2]? = some 0 ∧ b[3]? = some 255) ∧
      Sample.tag.decode [65, 0, 0, 255, 254, 7] = .ok Sample.tagged ∧
      ([65, 0, 0, 255, 254, 7] : Bytes).take 5 = ([65, 0, 0, 255, 254] : Bytes).take 5 := by
  have h : Sample.tag.decode [65, 0, 9, 255, 254, 1] = .ok Sample.tagged := by
    decide +kernel
  have h₁ : Sample.tag.decode [65, 0, 0, 255, 254] = .ok Sample.tagged := by
    decide +kernel
  have h₂ : Sample.tag.decode [65, 0, 0, 255, 254, 7] = .ok Sample.tagged := by
    decide +kernel
  obtain ⟨⟨b, hb, hlen, hbytes, -⟩, -⟩ := writeAll_of_decode h
  obtain ⟨-, hsame⟩ := writeAll_of_decode h₁
  refine ⟨h, ⟨b, hb, hlen, ?_, ?_⟩, h₂, ?_⟩
  · apply (hbytes 2 (by decide)).1
    exact ⟨_, List.mem_cons_self, 3, rfl, by decide, 1, by decide, by decide, rfl⟩
  · apply (hbytes 3 (by decide)).2
    rintro ⟨p, hp, size, hsize, hlt, -⟩
    rcases List.mem_cons.mp hp with rfl | hp
    · cases hsize
      exact absurd hlt (by decide)
    · rw [List.mem_singleton.mp hp] at hsize
      cases hsize
  · exact hsame _ _ h₂ rfl (Sample.tagged_isTidy rfl rfl) (Sample.tagged_isTidy rfl rfl)

end ResourceScript
