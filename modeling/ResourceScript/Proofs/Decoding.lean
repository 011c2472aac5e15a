import ResourceScript.Proofs.Codec
import ResourceScript.Proofs.Outcome
import ResourceScript.Resource.Inspection

namespace ResourceScript.Entry

variable {val : Entry → Value} {e : Entry} {es : List Entry} {data : Bytes} {offset : Nat}

def encoding (val : Entry → Value) (e : Entry) : Bytes :=
  e.type.encode (val e)

/-- The conditions under which entries decode to the values that they hold. A text that ends at its
first zero byte must have none inside, raw bytes must be the last there are, and a text of size zero
must have some bytes behind it. -/
def Recoverable (val : Entry → Value) : List Entry → Prop
  | [] => True
  | e :: es =>
    e.type ≠ .unknown ∧
    (e.type.endsAtZero = true → ∀ b, val e = .bytes b → 0 ∉ b) ∧
    (e.type = .raw → ∀ e' ∈ es, e'.type = .raw ∧ val e' = .bytes []) ∧
    (e.type = .fixed 0 → ∃ e' ∈ es, encoding val e' ≠ []) ∧
    Recoverable val es

def Fits (val : Entry → Value) (es : List Entry) : Prop :=
  ∀ e ∈ es, e.type ≠ .unknown → (val e).Admissible e.type

def valuesOf (val : Entry → Value) (es : List Entry) : List (String × Value) :=
  es.map fun e => (e.name, val e)

theorem encode_eq_nil {type : ValueType} {v : Value} (ha : v.Admissible type)
    (h : type.encode v = []) : type = .fixed 0 ∨ type = .raw ∧ v = .bytes [] := by
  match v, type, ha with
  | .integer n, .integer t, ha =>
    have hl := t.length_bytesOf n
    rw [← ValueType.encode_integer ha, h] at hl
    cases hw : t.width <;> simp [hw, Width.bytes] at hl
  | .rectangle ns, .rectangle, ha =>
    have hl := ValueType.length_encode (n := 8) ha rfl
    simp [h] at hl
  | .bytes b, .pascal, ha => simp [ValueType.encode_pascal ha] at h
  | .bytes b, .terminated, _ => simp [ValueType.encode, ValueType.write, Written.terminated,
      Written.ofBytes] at h
  | .bytes b, .fixed size, ha =>
    have hl := ValueType.length_encode (n := size) ha rfl
    rw [h] at hl
    exact .inl (congrArg ValueType.fixed hl.symm)
  | .bytes b, .raw, _ => exact .inr ⟨rfl, congrArg Value.bytes h⟩

theorem exists_bytes_of_raw {v : Value} (ha : v.Admissible .raw) : ∃ b, v = .bytes b := by
  match v, ha with
  | .bytes b, _ => exact ⟨b, rfl⟩

theorem flatMap_encoding_eq_nil (h : ∀ e ∈ es, e.type = .raw ∧ val e = .bytes []) :
    es.flatMap (encoding val) = [] := by
  refine List.flatMap_eq_nil_iff.mpr fun e he => ?_
  rw [encoding, (h e he).1, (h e he).2]
  rfl

theorem raw_of_flatMap_eq_nil (hf : Fits val es) (hr : Recoverable val es)
    (h : es.flatMap (encoding val) = []) : ∀ e ∈ es, e.type = .raw ∧ val e = .bytes [] := by
  induction es with
  | nil => exact List.forall_mem_nil _
  | cons e es ih =>
    obtain ⟨hu, -, -, hzero, hrest⟩ := hr
    obtain ⟨he, hes⟩ := List.append_eq_nil_iff.mp h
    refine List.forall_mem_cons.mpr
      ⟨?_, ih (fun e' he' => hf e' (List.mem_cons_of_mem e he')) hrest hes⟩
    obtain hfixed | hraw := encode_eq_nil (hf e List.mem_cons_self hu) he
    · obtain ⟨e', he', hne⟩ := hzero hfixed
      exact absurd (List.flatMap_eq_nil_iff.mp hes e' he') hne
    · exact hraw

theorem decode_eq_ok (hu : e.type ≠ .unknown) (ho : offset < data.length ∨ offset = data.length ∧
    e.type = .raw) (h : e.type.read data offset = .ok (v, used)) :
    e.decode data offset = .ok (v, used.toNat) := by
  have hg : ¬(data.length < offset ∨ offset = data.length ∧ e.type ≠ .raw) := by
    rintro (hlt | ⟨heq, hne⟩)
    · omega
    · exact ho.elim (fun hlt => by omega) fun h => hne h.2
  rw [decode, if_neg hu, if_neg hg, h]

theorem read_of_decode (h : e.decode data offset = .ok (v, n)) :
    e.type ≠ .unknown ∧ ¬(offset = data.length ∧ e.type ≠ .raw) ∧
      ∃ used, e.type.read data offset = .ok (v, used) ∧ n = used.toNat := by
  rw [decode] at h
  split at h
  · simp at h
  case isFalse hu =>
    split at h
    · simp at h
    case isFalse hg =>
      refine ⟨hu, fun hend => hg (.inr hend), ?_⟩
      split at h
      case h_1 v' used hread =>
        simp only [Except.ok.injEq, Prod.mk.injEq] at h
        exact ⟨used, h.1 ▸ hread, h.2.symm⟩
      case h_2 => simp at h

theorem decode_encoding (hf : (val e).Admissible e.type) (hu : e.type ≠ .unknown)
    (hz : e.type.endsAtZero = true → ∀ b, val e = .bytes b → 0 ∉ b) {rest : Bytes}
    (hr : e.type = .raw → rest = []) (hend : e.type ≠ .raw → encoding val e ++ rest ≠ [])
    (p : Bytes) :
    e.decode (p ++ (encoding val e ++ rest)) p.length = .ok (val e, (encoding val e).length) := by
  have hread := ValueType.read_encode hf hz hr p
  refine decode_eq_ok hu ?_ hread
  have hlen : (p ++ (encoding val e ++ rest)).length = p.length + (encoding val e ++ rest).length :=
    List.length_append
  by_cases hraw : e.type = .raw
  · have hle : p.length ≤ (p ++ (encoding val e ++ rest)).length := by omega
    exact (Nat.lt_or_eq_of_le hle).imp_right fun h => ⟨h, hraw⟩
  · have hpos := List.length_pos_iff.mpr (hend hraw)
    have hlt : p.length < (p ++ (encoding val e ++ rest)).length := by omega
    exact .inl hlt

theorem decodeAll_of_recoverable (hf : Fits val es) (hr : Recoverable val es) (p : Bytes) :
    ∃ d, decodeAll (p ++ es.flatMap (encoding val)) es p.length = .ok d ∧
      d.entries.map (fun d => (d.name, d.value)) = valuesOf val es ∧
      d.consumed = (p ++ es.flatMap (encoding val)).length := by
  induction es generalizing p with
  | nil => exact ⟨⟨[], p.length⟩, rfl, rfl, by simp⟩
  | cons e es ih =>
    obtain ⟨hu, hz, hraw, hzero, hrest⟩ := hr
    have ha := hf e List.mem_cons_self hu
    obtain ⟨d, hd, hvalues, hconsumed⟩ :=
      ih (fun e' he' => hf e' (List.mem_cons_of_mem e he')) hrest (p ++ encoding val e)
    have hend (hne : e.type ≠ .raw) : encoding val e ++ es.flatMap (encoding val) ≠ [] := by
      intro hnil
      obtain ⟨he, hes⟩ := List.append_eq_nil_iff.mp hnil
      obtain hfixed | ⟨hraw', -⟩ := encode_eq_nil ha he
      · obtain ⟨e', he', hne'⟩ := hzero hfixed
        exact hne' (List.flatMap_eq_nil_iff.mp hes e' he')
      · exact hne hraw'
    have hread := decode_encoding ha hu hz (fun h => flatMap_encoding_eq_nil (hraw h)) hend p
    rw [List.append_assoc, List.length_append] at hd
    rw [List.append_assoc] at hconsumed
    rw [List.flatMap_cons, decodeAll, hread]
    simp only [bind, Except.bind, hd, pure, Except.pure]
    exact ⟨_, rfl, by simp [valuesOf, hvalues], hconsumed⟩

theorem recoverable_of_decodeAll (hf : Fits val es) (p : Bytes)
    (h : decodeAll (p ++ es.flatMap (encoding val)) es p.length = .ok d)
    (hd : d.entries.map (fun d => (d.name, d.value)) = valuesOf val es) : Recoverable val es := by
  induction es generalizing p d with
  | nil => trivial
  | cons e es ih =>
    rw [List.flatMap_cons, decodeAll] at h
    obtain ⟨⟨v, n⟩, hdecode, h⟩ := Except.bind_eq_ok.mp h
    obtain ⟨d', hrest, h⟩ := Except.bind_eq_ok.mp h
    cases h
    simp only [List.map_cons, valuesOf, List.cons.injEq, Prod.mk.injEq, true_and] at hd
    obtain ⟨rfl, hd⟩ := hd
    obtain ⟨hu, hend, used, hread, -⟩ := read_of_decode hdecode
    have ha := hf e List.mem_cons_self hu
    have hes : Fits val es := fun e' he' => hf e' (List.mem_cons_of_mem e he')
    have hz (ht : e.type.endsAtZero = true) (b : Bytes) (hb : val e = .bytes b) : 0 ∉ b :=
      ValueType.zero_not_mem_of_read ht (hb ▸ hread)
    have hraw (ht : e.type = .raw) : es.flatMap (encoding val) = [] := by
      rw [ht] at ha hread
      obtain ⟨b, hb⟩ := exists_bytes_of_raw ha
      rw [encoding, ht, hb] at hread
      have hb' : (ValueType.encode .raw (.bytes b)) = b := rfl
      have hdata := congrArg Prod.fst (Except.ok.inj hread)
      rw [hb', List.drop_left] at hdata
      exact List.append_right_eq_self.mp (Value.bytes.inj hdata)
    have hne (ht : e.type ≠ .raw) : encoding val e ++ es.flatMap (encoding val) ≠ [] := by
      intro hnil
      exact hend ⟨by rw [hnil, List.append_nil], ht⟩
    rw [decode_encoding ha hu hz hraw hne p] at hdecode
    obtain rfl : (encoding val e).length = n := congrArg Prod.snd (Except.ok.inj hdecode)
    have hrec := ih hes (p ++ encoding val e) (by rwa [List.append_assoc, List.length_append]) hd
    refine ⟨hu, hz, fun ht => raw_of_flatMap_eq_nil hes hrec (hraw ht), fun ht => ?_, hrec⟩
    have hnil : encoding val e = [] := by
      rw [ht] at ha
      rw [encoding, ht]
      exact List.eq_nil_of_length_eq_zero (ValueType.length_encode ha rfl)
    have hrest : es.flatMap (encoding val) ≠ [] := by
      have := hne (by rw [ht]; nofun)
      rwa [hnil, List.nil_append] at this
    simpa [List.flatMap_eq_nil_iff] using hrest

theorem decodeAll_iff (hf : Fits val es) (p : Bytes) :
    (∃ d, decodeAll (p ++ es.flatMap (encoding val)) es p.length = .ok d ∧
      d.entries.map (fun d => (d.name, d.value)) = valuesOf val es) ↔ Recoverable val es := by
  constructor
  · rintro ⟨d, h, hd⟩
    exact recoverable_of_decodeAll hf p h hd
  · intro hr
    obtain ⟨d, h, hd, -⟩ := decodeAll_of_recoverable hf hr p
    exact ⟨d, h, hd⟩

end ResourceScript.Entry
