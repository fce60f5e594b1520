import Settlement.Number.Instances

/-! Byte strings and the little-endian words in them. -/

namespace Settlement

abbrev Bytes := List UInt8

namespace Bytes

/-- The number that bytes spell, least significant byte first. -/
def value : Bytes → Nat
  | [] => 0
  | b :: bs => b.toNat + 256 * value bs

/-- The lowest `width` bytes of a number, least significant byte first. -/
def ofNat : (width : Nat) → Nat → Bytes
  | 0, _ => []
  | width + 1, n => UInt8.ofNat n :: ofNat width (n / 256)

@[simp] theorem length_ofNat (width n : Nat) : (ofNat width n).length = width := by
  induction width generalizing n with
  | zero => rfl
  | succ w ih => simp only [ofNat, List.length_cons, ih]

theorem value_lt (bs : Bytes) : value bs < 256 ^ bs.length := by
  induction bs with
  | nil => decide
  | cons b bs ih =>
    have hb := b.toNat_lt
    simp only [value, List.length_cons, Nat.pow_succ]
    omega

theorem value_ofNat {width n : Nat} (h : n < 256 ^ width) : value (ofNat width n) = n := by
  induction width generalizing n with
  | zero =>
    simp only [Nat.pow_zero] at h
    simp only [ofNat, value]
    omega
  | succ w ih =>
    rw [Nat.pow_succ] at h
    have hq : n / 256 < 256 ^ w := Nat.div_lt_of_lt_mul (by rw [Nat.mul_comm]; exact h)
    simp only [ofNat, value, ih hq, UInt8.toNat_ofNat']
    omega

theorem ofNat_value (bs : Bytes) : ofNat bs.length (value bs) = bs := by
  induction bs with
  | nil => rfl
  | cons b bs ih =>
    have hb := b.toNat_lt
    simp only [List.length_cons, ofNat, value]
    congr 1
    · apply UInt8.toNat_inj.1
      simp only [UInt8.toNat_ofNat']
      omega
    · rw [show (b.toNat + 256 * value bs) / 256 = value bs by omega, ih]

/-- A field of fixed width: what is longer is cut off, what is shorter is filled with zeros. -/
def fit (width : Nat) (bs : Bytes) : Bytes :=
  bs.take width ++ List.replicate (width - bs.length) 0

@[simp] theorem length_fit (width : Nat) (bs : Bytes) : (fit width bs).length = width := by
  simp only [fit, List.length_append, List.length_take, List.length_replicate]
  omega

theorem fit_of_length {width : Nat} {bs : Bytes} (h : bs.length = width) : fit width bs = bs := by
  simp [fit, ← h]

def slice (start count : Nat) (bs : Bytes) : Bytes :=
  (bs.drop start).take count

def splice (start : Nat) (field bs : Bytes) : Bytes :=
  bs.take start ++ field ++ bs.drop (start + field.length)

theorem length_splice {start : Nat} {field bs : Bytes} (h : start + field.length ≤ bs.length) :
    (splice start field bs).length = bs.length := by
  simp only [splice, List.length_append, List.length_take, List.length_drop]
  omega

theorem slice_splice {start : Nat} {field bs : Bytes} (h : start ≤ bs.length) :
    slice start field.length (splice start field bs) = field := by
  have hlen : (bs.take start).length = start := by simp [h]
  rw [slice, splice, List.append_assoc, List.drop_append, List.drop_eq_nil_of_le (by omega), hlen,
    Nat.sub_self, List.drop_zero, List.nil_append, List.take_left]

end Bytes
end Settlement
