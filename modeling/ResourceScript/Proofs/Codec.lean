import Mathlib.Data.List.Induction
import Mathlib.Data.List.TakeWhile
import ResourceScript.Template.Value

namespace ResourceScript

def Value.Admissible : Value → ValueType → Prop
  | .integer n, .integer t => t.Holds n
  | .rectangle ns, .rectangle => ns.length = 4 ∧ ∀ n ∈ ns, IntegerType.component.Holds n
  | .bytes b, .pascal => b.length ≤ 255
  | .bytes _, .terminated => True
  | .bytes b, .fixed size => b.length ≤ size
  | .bytes _, .raw => True
  | _, _ => False

instance (v : Value) (type : ValueType) : Decidable (v.Admissible type) := by
  unfold Value.Admissible
  split <;> infer_instance

namespace ValueType

def encode (type : ValueType) (v : Value) : Bytes :=
  match type.write v with
  | .ok w => w.bytes
  | .error _ => []

def zero : ValueType → Value
  | integer _ => .integer 0
  | rectangle => .rectangle [0, 0, 0, 0]
  | _ => .bytes []

/-- The texts that a reader ends at their first zero byte. -/
def endsAtZero : ValueType → Bool
  | terminated | fixed _ => true
  | _ => false

end ValueType

namespace IntegerType

theorem count_eq (w : Width) : w.count = Nat.pow 256 w.bytes := by
  cases w <;> rfl

/-- The bytes of an integer in two's complement, those that are beyond the width left out. -/
def bytesOf (t : IntegerType) (n : Int) : Bytes :=
  BigEndian.bytes t.width.bytes (n % t.width.count).toNat

theorem length_bytesOf (t : IntegerType) (n : Int) : (t.bytesOf n).length = t.width.bytes :=
  BigEndian.length_bytes _ _

theorem pack_of_holds {t : IntegerType} (h : t.Holds n) : t.pack n = .ok (t.bytesOf n) :=
  if_pos h

theorem holds_zero (t : IntegerType) : t.Holds 0 := by
  obtain ⟨w, signed⟩ := t
  cases w <;> cases signed <;> decide

/-- An integer in range is told by its residue: the upper half of them stands for the negative ones
where there are any. -/
theorem unpack_bytesOf {t : IntegerType} (h : t.Holds n) : t.unpack (t.bytesOf n) = n := by
  have hv : (BigEndian.value (t.bytesOf n) : Int) = n % t.width.count := by
    rw [bytesOf, BigEndian.value_bytes, ← count_eq]
    have hpos : (0 : Int) < t.width.count := by cases t.width <;> decide
    have h₀ := Int.emod_nonneg n (Int.ne_of_gt hpos)
    have h₁ := Int.emod_lt_of_pos n hpos
    have h₂ : (n % t.width.count).toNat < t.width.count := by omega
    rw [Nat.mod_eq_of_lt h₂]
    omega
  unfold unpack
  simp only [hv]
  obtain ⟨w, signed⟩ := t
  obtain ⟨hlo, hhi⟩ := h
  cases w <;> cases signed <;>
    simp only [lo, hi, Width.count, Width.bits, Width.bytes, Nat.pow_eq, Nat.reducePow,
      Nat.reduceMul,
      Nat.reduceDiv, if_true, Bool.false_eq_true, if_false] at hlo hhi ⊢ <;>
    split <;> omega

end IntegerType

namespace BigEndian

theorem value_lt (b : Bytes) : value b < Nat.pow 256 b.length := by
  induction b using List.reverseRecOn with
  | nil => exact Nat.one_pos
  | append_singleton b x ih =>
    have hx := x.toNat_lt
    have hp : Nat.pow 256 (b.length + 1) = Nat.pow 256 b.length * 256 := rfl
    rw [value_append, List.length_append, List.length_singleton, hp]
    omega

theorem bytes_value (b : Bytes) : bytes b.length (value b) = b := by
  induction b using List.reverseRecOn with
  | nil => rfl
  | append_singleton b x ih =>
    have hx := x.toNat_lt
    have hdiv : (value b * 256 + x.toNat) / 256 = value b := by omega
    have hmod : (value b * 256 + x.toNat) % 256 = x.toNat := by omega
    rw [List.length_append, List.length_singleton, bytes, value_append, hdiv, hmod, ih,
      UInt8.ofNat_toNat]

theorem bytes_zero (width : Nat) : bytes width 0 = List.replicate width 0 := by
  induction width with
  | zero => rfl
  | succ width ih =>
    rw [bytes, List.replicate_succ', Nat.zero_div, ih]
    rfl

end BigEndian

namespace IntegerType

variable {t : IntegerType} {b : Bytes}

theorem value_lt_count (h : b.length = t.width.bytes) : BigEndian.value b < t.width.count := by
  rw [count_eq, ← h]
  exact BigEndian.value_lt b

theorem holds_unpack (h : b.length = t.width.bytes) : t.Holds (t.unpack b) := by
  have hlt := value_lt_count h
  unfold Holds unpack
  generalize BigEndian.value b = n at hlt ⊢
  obtain ⟨w, signed⟩ := t
  cases w <;> cases signed <;>
    simp only [lo, hi, Width.count, Width.bits, Width.bytes, Nat.pow_eq, Nat.reducePow,
      Nat.reduceMul,
      Nat.reduceDiv, if_true, Bool.false_eq_true, if_false] at hlt ⊢ <;>
    split <;> omega

theorem bytesOf_unpack (h : b.length = t.width.bytes) : t.bytesOf (t.unpack b) = b := by
  have hlt := value_lt_count h
  have hmod : t.unpack b % t.width.count = BigEndian.value b := by
    have hself := Int.emod_eq_of_lt (Int.natCast_nonneg _) (Int.ofNat_lt.mpr hlt)
    unfold unpack
    simp only
    split
    · exact hself
    · rw [Int.sub_emod_right]
      exact hself
  rw [bytesOf, hmod, Int.toNat_natCast, ← h]
  exact BigEndian.bytes_value b

end IntegerType

namespace Written

theorem packAll_of_holds {t : IntegerType} {ns : List Int} (h : ∀ n ∈ ns, t.Holds n) :
    packAll t ns = .ok (ns.flatMap t.bytesOf) := by
  induction ns with
  | nil => rfl
  | cons n ns ih =>
    have hn := IntegerType.pack_of_holds (h n List.mem_cons_self)
    have hs := ih fun m hm => h m (List.mem_cons_of_mem _ hm)
    rw [packAll, hn, hs]
    rfl

end Written

namespace ValueType

variable {type : ValueType} {v : Value}

theorem write_of_admissible (h : v.Admissible type) :
    type.write v = .ok { bytes := type.encode v, count := (type.encode v).length } := by
  unfold encode
  match v, type, h with
  | .integer n, .integer t, h =>
    rw [write, Written.integer, IntegerType.pack_of_holds h]
    rfl
  | .rectangle ns, .rectangle, h =>
    rw [write, Written.rectangle, if_pos h.1, Written.packAll_of_holds h.2]
    rfl
  | .bytes b, .pascal, h =>
    have hb : b.length < 256 := Nat.lt_succ_of_le h
    rw [write, Written.pascal, if_pos hb]
    rfl
  | .bytes b, .terminated, _ => rfl
  | .bytes b, .fixed size, h =>
    have hb : b.length ≤ size := h
    have hl : (b ++ List.replicate (size - b.length) (0 : UInt8)).length = size := by
      simp [hb]
    simp only [write, Written.fixed, hl]
  | .bytes b, .raw, _ => rfl

theorem zero_admissible (h : type ≠ .unknown) : type.zero.Admissible type := by
  cases type with
  | integer t => exact t.holds_zero
  | rectangle => decide
  | pascal => exact Nat.zero_le 255
  | terminated => trivial
  | fixed size => exact Nat.zero_le size
  | raw => trivial
  | unknown => exact absurd rfl h

theorem default_eq_encode_zero (type : ValueType) : type.default = type.encode type.zero := by
  cases type with
  | integer t =>
    rw [encode, zero, write, Written.integer, IntegerType.pack_of_holds t.holds_zero]
    exact (BigEndian.bytes_zero _).symm
  | rectangle => decide
  | fixed size => simp [encode, zero, write, Written.fixed, default]
  | _ => rfl

theorem encode_integer {t : IntegerType} (h : t.Holds n) :
    encode (.integer t) (.integer n) = t.bytesOf n := by
  rw [encode, write, Written.integer, IntegerType.pack_of_holds h]
  rfl

theorem encode_rectangle {ns : List Int} (h : (Value.rectangle ns).Admissible .rectangle) :
    encode .rectangle (.rectangle ns) = ns.flatMap IntegerType.component.bytesOf := by
  rw [encode, write, Written.rectangle, if_pos h.1, Written.packAll_of_holds h.2]
  rfl

theorem encode_pascal {b : Bytes} (h : b.length ≤ 255) :
    encode .pascal (.bytes b) = UInt8.ofNat b.length :: b := by
  rw [encode, write, Written.pascal, if_pos (Nat.lt_succ_of_le h)]
  rfl

theorem length_encode (h : v.Admissible type) (hs : type.size? = some n) :
    (type.encode v).length = n := by
  match v, type, h with
  | .integer m, .integer t, h =>
    obtain rfl := Option.some.inj hs
    rw [encode_integer h, t.length_bytesOf]
  | .rectangle ns, .rectangle, h =>
    obtain rfl := Option.some.inj hs
    rw [encode_rectangle h, List.length_flatMap]
    simp only [IntegerType.length_bytesOf, List.map_const', List.sum_replicate_nat, h.1]
    rfl
  | .bytes b, .fixed size, h =>
    obtain rfl := Option.some.inj hs
    have hb : b.length ≤ size := h
    simp [encode, write, Written.fixed, hb]

theorem slice_append (p b s : Bytes) : slice (p ++ (b ++ s)) p.length b.length = .ok b := by
  simp [slice]

theorem takeWhile_append_zero {b : Bytes} (h : 0 ∉ b) (s : Bytes) :
    (b ++ 0 :: s).takeWhile (· != 0) = b := by
  rw [List.takeWhile_append_of_pos, List.takeWhile_cons_of_neg, List.append_nil]
  · decide
  · intro x hx
    simpa using ne_of_mem_of_not_mem hx h

theorem takeWhile_append_zeros {b : Bytes} (h : 0 ∉ b) (n : Nat) :
    (b ++ List.replicate n 0).takeWhile (· != 0) = b := by
  cases n with
  | zero =>
    rw [List.replicate_zero, List.append_nil, List.takeWhile_eq_self_iff]
    intro x hx
    simpa using ne_of_mem_of_not_mem hx h
  | succ n => exact takeWhile_append_zero h _

/-- Reading where a value was written gives it back. Raw bytes have to be the last. -/
theorem read_encode (h : v.Admissible type)
    (hz : type.endsAtZero = true → ∀ b, v = .bytes b → 0 ∉ b) (hr : type = .raw → s = [])
    (p : Bytes) :
    type.read (p ++ (type.encode v ++ s)) p.length = .ok (v, (type.encode v).length) := by
  match v, type, h with
  | .integer n, .integer t, h =>
    have hs := slice_append p (t.bytesOf n) s
    rw [t.length_bytesOf] at hs
    rw [encode_integer h, read, hs, t.length_bytesOf]
    exact congrArg (fun m => Except.ok (Value.integer m, (t.width.bytes : Int)))
      (IntegerType.unpack_bytesOf h)
  | .rectangle [a, b, c, d], .rectangle, h =>
    have hs := slice_append p (encode .rectangle (.rectangle [a, b, c, d])) s
    have hl : (encode .rectangle (.rectangle [a, b, c, d])).length = 8 := length_encode h rfl
    rw [hl] at hs
    rw [read, hs, hl, encode_rectangle h]
    have hu (n : Int) (hn : n ∈ [a, b, c, d]) := IntegerType.unpack_bytesOf (h.2 n hn)
    have hw (n : Int) : (IntegerType.component.bytesOf n).length = 2 :=
      IntegerType.component.length_bytesOf n
    simp only [List.mem_cons, List.not_mem_nil, or_false, forall_eq_or_imp, forall_eq] at hu
    simp [bind, Except.bind, pure, Except.pure, List.drop_append, hw, hu, List.take_of_length_le,
      List.drop_eq_nil_of_le]
  | .bytes b, .pascal, h =>
    have hb : b.length < 256 := Nat.lt_succ_of_le h
    simp [read, encode_pascal h, Nat.mod_eq_of_lt hb, Int.add_comm]
  | .bytes b, .terminated, _ =>
    have hb := hz rfl b rfl
    have ht := takeWhile_append_zero hb s
    have he : encode .terminated (.bytes b) = b ++ [0] := rfl
    simp [read, he, ht]
  | .bytes b, .fixed size, h =>
    have hb := hz rfl b rfl
    have ht := takeWhile_append_zeros hb (size - b.length)
    have hl : (encode (.fixed size) (.bytes b)).length = size := length_encode h rfl
    have he : encode (.fixed size) (.bytes b) = b ++ List.replicate (size - b.length) 0 := rfl
    have hd : ((p ++ (encode (.fixed size) (.bytes b) ++ s)).drop p.length).take size =
        encode (.fixed size) (.bytes b) := by
      rw [List.drop_left, List.take_append_of_le_length (Nat.le_of_eq hl.symm),
        List.take_of_length_le (Nat.le_of_eq hl)]
    simp only [read, hd, hl, if_true]
    rw [he, ht]
  | .bytes b, .raw, _ =>
    obtain rfl := hr rfl
    have he : encode .raw (.bytes b) = b := rfl
    have hl : ((p.length + b.length : Nat) : Int) - p.length = b.length := by omega
    simp only [read, he, List.append_nil, List.drop_left, List.length_append, hl]

theorem zero_not_mem_of_read {data : Bytes} {offset : Nat} {b : Bytes} {used : Int}
    (he : type.endsAtZero = true) (h : type.read data offset = .ok (.bytes b, used)) : 0 ∉ b := by
  have hw (l : Bytes) : 0 ∉ l.takeWhile (· != 0) := by
    intro h0
    have hp := List.mem_takeWhile_imp h0
    simp at hp
  cases type with
  | terminated =>
    simp only [read] at h
    split at h
    · obtain ⟨rfl, -⟩ := by simpa using h
      exact hw _
    · simp at h
  | fixed size =>
    simp only [read] at h
    split at h
    · obtain ⟨rfl, -⟩ := by simpa using h
      exact hw _
    · simp at h
  | _ => simp [endsAtZero] at he

end ValueType

end ResourceScript
