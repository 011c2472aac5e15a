import ResourceScript.Failure

namespace ResourceScript

namespace BigEndian

def bytes : Nat → Nat → Bytes
  | 0, _ => []
  | width + 1, n => bytes width (n / 256) ++ [UInt8.ofNat (n % 256)]

def value (b : Bytes) : Nat :=
  b.foldl (fun n x => n * 256 + x.toNat) 0

theorem length_bytes (width n : Nat) : (bytes width n).length = width := by
  induction width generalizing n with
  | zero => rfl
  | succ width ih => simp [bytes, ih]

theorem value_append (b : Bytes) (x : UInt8) : value (b ++ [x]) = value b * 256 + x.toNat := by
  simp [value]

theorem value_bytes (width n : Nat) : value (bytes width n) = n % Nat.pow 256 width := by
  induction width generalizing n with
  | zero => simp [bytes, value, Nat.mod_one]
  | succ width ih =>
    have h : (UInt8.ofNat (n % 256)).toNat = n % 256 := by simp
    have hp : Nat.pow 256 (width + 1) = 256 * Nat.pow 256 width := Nat.mul_comm _ _
    rw [bytes, value_append, ih, h, hp, Nat.mod_mul]
    omega

end BigEndian

namespace IntegerType

def pack (t : IntegerType) (n : Int) : Except Fault Bytes :=
  if t.Holds n then .ok (BigEndian.bytes t.width.bytes (n % t.width.count).toNat)
  else .error .integerTooLarge

def unpack (t : IntegerType) (b : Bytes) : Int :=
  let n : Int := BigEndian.value b
  if n ≤ t.hi then n else n - t.width.count

end IntegerType

end ResourceScript
