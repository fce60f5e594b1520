import Settlement.Account.Field
import Settlement.Proofs.Fault.Outcome

/-! When a number fits its field, and what the field holds then. -/

namespace Settlement.Field

variable {n : Int} {bs : Bytes} {width : Nat}

theorem unsigned_ok : unsigned width n = .ok bs ↔
    (0 ≤ n ∧ n < 256 ^ width) ∧ bs = Bytes.ofNat width n.toNat := by
  rw [unsigned]
  split
  · next h => simp only [Except.ok.injEq, h, and_self, true_and, eq_comm]
  · next h => simp only [reduceCtorEq, h, false_and]

theorem word_ok : word n = .ok bs ↔ (0 ≤ n ∧ n < 2 ^ 64) ∧ bs = Bytes.ofNat 8 n.toNat := by
  rw [word]
  split
  · next h => simp only [Except.ok.injEq, h, and_self, true_and, eq_comm]
  · next h => simp only [reduceCtorEq, h, false_and]

theorem unsigned_error {e : Fault} : unsigned width n = .error e ↔
    ¬ (0 ≤ n ∧ n < 256 ^ width) ∧ e = .fieldRange := by
  rw [unsigned]
  by_cases h : 0 ≤ n ∧ n < 256 ^ width
  · simp [h]
  · simp [h, eq_comm]

theorem word_error {e : Fault} : word n = .error e ↔
    ¬ (0 ≤ n ∧ n < 2 ^ 64) ∧ e = .wordRange := by
  rw [word]
  split
  · next h => simp only [reduceCtorEq, h, and_self, not_true_eq_false, false_and]
  · next h => simp only [Except.error.injEq, h, not_false_eq_true, true_and, eq_comm]

theorem byte_ok {b : UInt8} : byte n = .ok b ↔ (0 ≤ n ∧ n < 256) ∧ b = UInt8.ofNat n.toNat := by
  rw [byte]
  split
  · next h => simp only [Except.ok.injEq, h, and_self, true_and, eq_comm]
  · next h => simp only [reduceCtorEq, h, false_and]

theorem byte_error {e : Fault} : byte n = .error e ↔ ¬ (0 ≤ n ∧ n < 256) ∧ e = .byteRange := by
  rw [byte]
  split
  · next h => simp only [reduceCtorEq, h, and_self, not_true_eq_false, false_and]
  · next h => simp only [Except.error.injEq, h, not_false_eq_true, true_and, eq_comm]

theorem value_ofNat_toNat (hpos : 0 ≤ n) (hlt : n < 256 ^ width) :
    Bytes.value (Bytes.ofNat width n.toNat) = n.toNat := by
  have hcast : ((256 ^ width : Nat) : Int) = 256 ^ width := by
    rw [Int.natCast_pow]
    rfl
  exact Bytes.value_ofNat (by omega)

/-- A number in an unsigned field is read back. -/
theorem unsigned_value (h : unsigned width n = .ok bs) :
    bs.length = width ∧ (Bytes.value bs : Int) = n := by
  obtain ⟨⟨hpos, hlt⟩, rfl⟩ := unsigned_ok.1 h
  have hvalue := value_ofNat_toNat hpos hlt
  exact ⟨Bytes.length_ofNat width _, by omega⟩

/-- A number in a signed field of eight bytes is read back. -/
theorem signed_value (h : signed 8 n = .ok bs) : bs.length = 8 ∧ readSigned bs = n := by
  have hpow : (256 : Int) ^ 8 = 18446744073709551616 := by decide
  simp only [signed, hpow] at h
  split at h
  · next hrange =>
    cases h
    have hlength : (Bytes.ofNat 8 (n % 18446744073709551616).toNat).length = 8 :=
      Bytes.length_ofNat 8 _
    have hvalue : Bytes.value (Bytes.ofNat 8 (n % 18446744073709551616).toNat) =
        (n % 18446744073709551616).toNat := Bytes.value_ofNat (by omega)
    refine ⟨hlength, ?_⟩
    simp only [readSigned, hlength, hvalue, hpow]
    split <;> omega
  · cases h

@[simp] theorem readFlag_flag (b : Bool) : readFlag (flag b) = b := by
  cases b <;> decide

end Settlement.Field
