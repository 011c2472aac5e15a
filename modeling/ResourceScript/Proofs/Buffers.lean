import ResourceScript.Proofs.Codec

namespace ResourceScript

abbrev BufferM := EStateM Fault Bytes

namespace BufferM

def push (b : Bytes) : BufferM Unit :=
  modify (· ++ b)

def pushByte (n : Nat) : BufferM Unit :=
  if n < 256 then push [UInt8.ofNat n] else throw .lengthTooLarge

def pushAll (w : Except Fault Written) : BufferM Nat := do
  let w ← MonadExcept.ofExcept w
  push w.bytes
  return w.count

variable {p : Bytes}

theorem push_bind (b : Bytes) (f : Unit → BufferM α) : (push b >>= f) p = f () (p ++ b) := rfl

theorem ofExcept_ok_bind (a : α) (f : α → BufferM β) :
    (MonadExcept.ofExcept (.ok a : Except Fault α) >>= f) p = f a p := rfl

theorem ofExcept_error_bind (e : Fault) (f : α → BufferM β) :
    (MonadExcept.ofExcept (.error e : Except Fault α) >>= f) p = .error e p := rfl

theorem pushAll_ok (w : Written) : pushAll (.ok w) p = .ok w.count (p ++ w.bytes) := rfl

theorem pushByte_bind (hn : n < 256) (f : Unit → BufferM α) :
    (pushByte n >>= f) p = f () (p ++ [UInt8.ofNat n]) := by
  rw [pushByte, if_pos hn, push_bind]

end BufferM

namespace Written

theorem packAll_of_not_holds {t : IntegerType} {ns : List Int} (h : ∃ n ∈ ns, ¬ t.Holds n) :
    packAll t ns = .error .integerTooLarge := by
  induction ns with
  | nil => simp at h
  | cons n ns ih =>
    rw [packAll]
    by_cases hn : t.Holds n
    · have hns : ∃ m ∈ ns, ¬ t.Holds m := by simpa [hn] using h
      rw [IntegerType.pack_of_holds hn, ih hns]
      rfl
    · rw [IntegerType.pack, if_neg hn]
      rfl

theorem length_packAll {t : IntegerType} {ns : List Int} (h : packAll t ns = .ok b) :
    b.length = ns.length * t.width.bytes := by
  by_cases hns : ∀ n ∈ ns, t.Holds n
  · rw [packAll_of_holds hns] at h
    obtain rfl := Except.ok.inj h
    simp only [List.length_flatMap, IntegerType.length_bytesOf, List.map_const',
      List.sum_replicate_nat]
  · push Not at hns
    rw [packAll_of_not_holds hns] at h
    cases h

end Written

namespace ValueType

open BufferM

/-- Writes a value of a type piece by piece and tells how many bytes that makes. -/
def put (type : ValueType) (v : Value) : BufferM Nat :=
  match type, v with
  | .integer t, .integer n => do
    push (← MonadExcept.ofExcept (t.pack n))
    return t.width.bytes
  | .rectangle, .rectangle ns =>
    if ns.length = 4 then do
      push (← MonadExcept.ofExcept (Written.packAll .component ns))
      return 8
    else throw .componentCount
  | .pascal, .bytes b => do
    pushByte b.length
    push b
    return 1 + b.length
  | .terminated, .bytes b => do
    push b
    pushByte 0
    return b.length + 1
  | .fixed size, .bytes b => do
    push b
    push (List.replicate (size - b.length) 0)
    return size
  | .raw, .bytes b => do
    push b
    return b.length
  | .unknown, _ => throw (.notEncodable type)
  | _, _ => throw .valueShape

variable {type : ValueType} {v : Value} {p : Bytes}

theorem put_integer (t : IntegerType) (n : Int) :
    (integer t).put (.integer n) p = pushAll (Written.integer t n) p := by
  rw [put, Written.integer]
  by_cases hn : t.Holds n
  · rw [IntegerType.pack_of_holds hn, ofExcept_ok_bind, push_bind, ← t.length_bytesOf n]
    rfl
  · rw [IntegerType.pack, if_neg hn, ofExcept_error_bind]
    rfl

theorem put_rectangle (ns : List Int) :
    rectangle.put (.rectangle ns) p = pushAll (Written.rectangle ns) p := by
  rw [put, Written.rectangle]
  by_cases hlength : ns.length = 4
  · rw [if_pos hlength, if_pos hlength]
    cases hb : Written.packAll .component ns with
    | error e => rfl
    | ok b =>
      have hcount : b.length = 8 := by
        rw [Written.length_packAll hb, hlength]
        rfl
      rw [ofExcept_ok_bind, push_bind, ← hcount]
      rfl
  · rw [if_neg hlength, if_neg hlength]
    rfl

theorem put_pascal (b : Bytes) : pascal.put (.bytes b) p = pushAll (Written.pascal b) p := by
  rw [put, Written.pascal]
  by_cases hb : b.length < 256
  · rw [pushByte_bind hb, push_bind, if_pos hb, List.append_assoc, Nat.add_comm]
    rfl
  · rw [pushByte, if_neg hb, if_neg hb]
    rfl

theorem put_terminated (b : Bytes) :
    terminated.put (.bytes b) p = pushAll (.ok (Written.terminated b)) p := by
  have hcount : (Written.terminated b).count = b.length + 1 := List.length_append
  rw [put, push_bind, pushByte_bind (by decide), List.append_assoc, pushAll_ok, hcount]
  rfl

theorem put_fixed (size : Nat) (b : Bytes) :
    (fixed size).put (.bytes b) p = pushAll (.ok (Written.fixed b size)) p := by
  rw [put, push_bind, push_bind, List.append_assoc]
  rfl

/-- The pieces make up what is written at once, and a writer that fails does so before the first. -/
theorem put_eq (type : ValueType) (v : Value) (p : Bytes) :
    type.put v p = pushAll (type.write v) p := by
  cases type <;> cases v
  case integer.integer t n => exact put_integer t n
  case rectangle.rectangle ns => exact put_rectangle ns
  case pascal.bytes b => exact put_pascal b
  case terminated.bytes b => exact put_terminated b
  case fixed.bytes size b => exact put_fixed size b
  all_goals rfl

theorem put_of_admissible (h : v.Admissible type) :
    type.put v p = .ok (type.encode v).length (p ++ type.encode v) := by
  rw [put_eq, write_of_admissible h, pushAll_ok]

theorem put_integer_of_not_holds {t : IntegerType} (h : ¬ t.Holds n) :
    (integer t).put (.integer n) p = .error .integerTooLarge p := by
  rw [put_integer, Written.integer, IntegerType.pack, if_neg h]
  rfl

theorem put_rectangle_of_not_holds {ns : List Int} (hlength : ns.length = 4)
    (h : ∃ n ∈ ns, ¬ IntegerType.component.Holds n) :
    rectangle.put (.rectangle ns) p = .error .integerTooLarge p := by
  rw [put_rectangle, Written.rectangle, if_pos hlength, Written.packAll_of_not_holds h]
  rfl

/-- Whatever is in a buffer, a value that its type holds is added behind it, in as many bytes as the
writer tells and the type asks for, and is read back there whatever follows; raw bytes have to be
the last, and texts that end at a zero byte must not have one inside. An integer or a component out
of range leaves the buffer as it was. What stands for an entry that no field writes is the zero of
its type. -/
theorem put_read (htype : type ≠ .unknown) (p : Bytes) :
    (∀ v, v.Admissible type → (type.endsAtZero = true → ∀ b, v = .bytes b → 0 ∉ b) →
      ∃ b, type.write v = .ok { bytes := b, count := b.length } ∧
        type.put v p = .ok b.length (p ++ b) ∧ (∀ n, type.size? = some n → b.length = n) ∧
        ∀ s, (type = .raw → s = []) → type.read (p ++ (b ++ s)) p.length = .ok (v, b.length)) ∧
    (∀ t n, type = .integer t → ¬ t.Holds n →
      type.put (.integer n) p = .error .integerTooLarge p) ∧
    (∀ ns, type = .rectangle → ns.length = 4 → (∃ n ∈ ns, ¬ IntegerType.component.Holds n) →
      type.put (.rectangle ns) p = .error .integerTooLarge p) ∧
    type.put type.zero p = .ok type.default.length (p ++ type.default) := by
  refine ⟨?_, ?_, ?_, ?_⟩
  · intro v hv hz
    exact ⟨type.encode v, write_of_admissible hv, put_of_admissible hv,
      fun n => length_encode hv, fun s hs => read_encode hv hz hs p⟩
  · rintro t n rfl hn
    exact put_integer_of_not_holds hn
  · rintro ns rfl hlength hns
    exact put_rectangle_of_not_holds hlength hns
  · rw [put_of_admissible (zero_admissible htype), default_eq_encode_zero]

theorem put_read_sample :
    put (.integer ⟨.two, true⟩) (.integer (-2)) [7] = .ok 2 [7, 255, 254] ∧
    read (.integer ⟨.two, true⟩) [7, 255, 254, 9] 1 = .ok (.integer (-2), 2) ∧
    put (.integer ⟨.two, true⟩) (.integer 40000) [7] = .error .integerTooLarge [7] := by
  have htype : ValueType.integer ⟨.two, true⟩ ≠ .unknown := by decide
  obtain ⟨hholds, hfails, -, -⟩ := put_read htype [7]
  obtain ⟨b, hwrite, hput, -, hread⟩ := hholds (.integer (-2)) (by decide) nofun
  obtain rfl : b = [255, 254] := by
    have hb : write (.integer ⟨.two, true⟩) (.integer (-2)) = .ok ⟨[255, 254], 2⟩ := rfl
    rw [hb] at hwrite
    cases hwrite
    rfl
  exact ⟨hput, hread [9] nofun, hfails _ 40000 rfl (by decide)⟩

end ValueType

end ResourceScript
