import Settlement.Number.Basic

/-! Whole numbers up to `2 ^ 53` among the binary64 numbers. They are there exactly, and so is a sum
of them that does not exceed the bound: nothing is lost by adding up. -/

namespace Settlement

namespace Binary64

theorem log2_mul_two_pow {n : Nat} (hn : n ≠ 0) (k : Nat) : (n * 2 ^ k).log2 = n.log2 + k := by
  have hpos : 0 < 2 ^ k := Nat.two_pow_pos k
  obtain ⟨hlow, hhigh⟩ := (Nat.log2_eq_iff hn).1 rfl
  refine (Nat.log2_eq_iff (Nat.mul_ne_zero hn (by omega))).2 ⟨?_, ?_⟩
  · rw [Nat.pow_add]
    exact Nat.mul_le_mul_right _ hlow
  · rw [Nat.add_right_comm, Nat.pow_add]
    exact Nat.mul_lt_mul_of_pos_right hhigh hpos

theorem divRound_mul (q : Nat) {d : Nat} (hd : 0 < d) : divRound (q * d) d = q := by
  simp only [divRound, Nat.mul_div_cancel q hd, Nat.mul_mod_left, Nat.mul_zero, hd, if_true]

theorem scaled_eq (num den : Nat) (e : Int) :
    scaled num den e = (num * 2 ^ (-e).toNat, den * 2 ^ e.toNat) := by
  by_cases he : 0 ≤ e
  · have hzero : (-e).toNat = 0 := by omega
    simp [scaled, he, hzero]
  · have hzero : e.toNat = 0 := by omega
    simp [scaled, he, hzero]

/-- A whole number over a power of two needs no larger exponent than its length asks for. -/
theorem exponentFor_le {n : Nat} (hn : n ≠ 0) (k : Nat) :
    exponentFor (n * 2 ^ k) (2 ^ k) ≤ max ((n.log2 : Int) - 52) (-1074) := by
  simp only [exponentFor, log2_mul_two_pow hn, Nat.log2_two_pow]
  split <;> omega

/-- The number is exactly a whole one. Of the two powers one is always 1. -/
def Whole (x : Binary64) (n : Nat) : Prop :=
  ∃ m e, x = .finite false m e ∧ m * 2 ^ e.toNat = n * 2 ^ (-e).toNat

theorem whole_zero : Whole zero 0 := ⟨0, -1074, rfl, by rw [Nat.zero_mul, Nat.zero_mul]⟩

/-- A significand that is carried over is half as large, under an exponent that is one larger. -/
theorem carry {m n : Nat} {e : Int} (h : 2 * m * 2 ^ e.toNat = n * 2 ^ (-e).toNat) :
    m * 2 ^ (e + 1).toNat = n * 2 ^ (-(e + 1)).toNat := by
  by_cases he : 0 ≤ e
  · have hup : (e + 1).toNat = e.toNat + 1 := by omega
    have hzero : (-e).toNat = 0 := by omega
    have hnext : (-(e + 1)).toNat = 0 := by omega
    rw [hzero] at h
    rw [hup, hnext, Nat.pow_succ, Nat.mul_comm (2 ^ e.toNat), ← Nat.mul_assoc, Nat.mul_comm m, h]
  · have hup : (e + 1).toNat = 0 := by omega
    have hzero : e.toNat = 0 := by omega
    have hnext : (-e).toNat = (-(e + 1)).toNat + 1 := by omega
    rw [hzero, hnext, Nat.pow_succ, ← Nat.mul_assoc] at h
    rw [hup]
    omega

theorem exists_significand {n : Nat} (hle : n ≤ 2 ^ 53) {e : Int}
    (he : e ≤ max ((n.log2 : Int) - 52) (-1074)) :
    ∃ q, q * 2 ^ e.toNat = n * 2 ^ (-e).toNat := by
  by_cases hpos : e ≤ 0
  · have hzero : e.toNat = 0 := by omega
    exact ⟨n * 2 ^ (-e).toNat, by rw [hzero, Nat.pow_zero, Nat.mul_one]⟩
  · -- Only the bound itself has more than 53 bits.
    have hn : n ≠ 0 := by
      rintro rfl
      simp only [Nat.log2_zero] at he
      omega
    have hlog : ¬ n.log2 < 53 := by omega
    rw [Nat.log2_lt hn] at hlog
    have hbound : n = 2 ^ 53 := by omega
    subst hbound
    rw [Nat.log2_two_pow] at he
    have hone : e = 1 := by omega
    subst hone
    exact ⟨2 ^ 52, by decide⟩

theorem ofQuotient_whole {n : Nat} (hle : n ≤ 2 ^ 53) (k : Nat) :
    Whole (ofQuotient false (n * 2 ^ k) (2 ^ k)) n := by
  have hpos : 0 < 2 ^ k := Nat.two_pow_pos k
  by_cases hn : n = 0
  · subst hn
    rw [ofQuotient, if_pos (Nat.zero_mul _)]
    exact whole_zero
  · have hnum : n * 2 ^ k ≠ 0 := Nat.mul_ne_zero hn (by omega)
    have he := exponentFor_le hn k
    generalize hexponent : exponentFor (n * 2 ^ k) (2 ^ k) = e at he
    obtain ⟨q, hq⟩ := exists_significand hle he
    have hround : divRound (n * 2 ^ k * 2 ^ (-e).toNat) (2 ^ k * 2 ^ e.toNat) = q := by
      have hsplit : n * 2 ^ k * 2 ^ (-e).toNat = q * (2 ^ k * 2 ^ e.toNat) := by
        rw [Nat.mul_right_comm, ← hq, Nat.mul_assoc, Nat.mul_comm (2 ^ e.toNat)]
      rw [hsplit]
      exact divRound_mul q (Nat.mul_pos hpos (Nat.two_pow_pos _))
    have hlog : n.log2 < 54 := (Nat.log2_lt hn).2 (by omega)
    simp only [ofQuotient, hnum, if_false, hexponent, scaled_eq, hround]
    by_cases hcarry : q = 2 ^ 53
    · have hsmall : ¬ 971 < e + 1 := by omega
      simp only [hcarry, if_true, hsmall, if_false]
      have hdouble : q = 2 * 2 ^ 52 := hcarry
      exact ⟨2 ^ 52, e + 1, rfl, carry (hdouble ▸ hq)⟩
    · have hsmall : ¬ 971 < e := by omega
      simp only [hcarry, if_false, hsmall]
      exact ⟨q, e, rfl, hq⟩

theorem whole_ofInt {n : Nat} (hle : n ≤ 2 ^ 53) : Whole (ofInt n) n := by
  have hnonneg : ¬ (n : Int) < 0 := by omega
  have hquotient := ofQuotient_whole hle 0
  rw [Nat.pow_zero, Nat.mul_one] at hquotient
  simpa only [ofInt, hnonneg, decide_false, Int.natAbs_natCast] using hquotient

/-- A whole number in smaller units. -/
theorem whole_inUnits {m n : Nat} {e unit : Int} (h : m * 2 ^ e.toNat = n * 2 ^ (-e).toNat)
    (hle : unit ≤ e) : m * 2 ^ (e - unit).toNat * 2 ^ unit.toNat = n * 2 ^ (-unit).toNat := by
  by_cases hunit : 0 ≤ unit
  · have hsum : e.toNat = (e - unit).toNat + unit.toNat := by omega
    have hzero : (-e).toNat = 0 := by omega
    have hone : (-unit).toNat = 0 := by omega
    rw [Nat.mul_assoc, ← Nat.pow_add, ← hsum, h, hzero, hone]
  · have hone : unit.toNat = 0 := by omega
    rw [hone, Nat.pow_zero, Nat.mul_one]
    by_cases he : 0 ≤ e
    · have hsum : (e - unit).toNat = e.toNat + (-unit).toNat := by omega
      have hzero : (-e).toNat = 0 := by omega
      rw [hzero, Nat.pow_zero, Nat.mul_one] at h
      rw [hsum, Nat.pow_add, ← Nat.mul_assoc, h]
    · have hsum : (-unit).toNat = (-e).toNat + (e - unit).toNat := by omega
      have hzero : e.toNat = 0 := by omega
      rw [hzero, Nat.pow_zero, Nat.mul_one] at h
      rw [hsum, Nat.pow_add, ← Nat.mul_assoc, h]

theorem ofScaled_whole {s n : Nat} {unit : Int} (h : s * 2 ^ unit.toNat = n * 2 ^ (-unit).toNat)
    (hle : n ≤ 2 ^ 53) : Whole (ofScaled false s unit) n := by
  by_cases hunit : 0 ≤ unit
  · have hone : (-unit).toNat = 0 := by omega
    rw [hone] at h
    rw [ofScaled, if_pos hunit, h]
    exact ofQuotient_whole hle 0
  · have hone : unit.toNat = 0 := by omega
    rw [hone, Nat.pow_zero, Nat.mul_one] at h
    rw [ofScaled, if_neg hunit, h]
    exact ofQuotient_whole hle _

/-- Adding whole numbers is exact as long as the sum does not exceed the bound. -/
theorem Whole.add {x y : Binary64} {a b : Nat} (hx : Whole x a) (hy : Whole y b)
    (hle : a + b ≤ 2 ^ 53) : Whole (x.add y) (a + b) := by
  obtain ⟨m, e, rfl, hm⟩ := hx
  obtain ⟨n, f, rfl, hn⟩ := hy
  have hm := whole_inUnits hm (Int.min_le_left e f)
  have hn := whole_inUnits hn (Int.min_le_right e f)
  simp only [Binary64.add]
  generalize min e f = unit at hm hn
  have hsum : inUnits false m e unit + inUnits false n f unit =
      (m * 2 ^ (e - unit).toNat + n * 2 ^ (f - unit).toNat : Nat) := rfl
  have hsign (s : Nat) :
      (if (s : Int) = 0 then false && false else decide ((s : Int) < 0)) = false := by
    split <;> simp
  rw [hsum, hsign, Int.natAbs_natCast]
  refine ofScaled_whole ?_ hle
  rw [Nat.add_mul, hm, hn, ← Nat.add_mul]

theorem inUnits_exactly (n unit : Int) :
    inUnits (decide (n < 0)) n.natAbs 0 unit = n * 2 ^ (-unit).toNat := by
  have hunit : 0 - unit = -unit := Int.zero_sub unit
  by_cases hneg : n < 0
  · have habs : (n.natAbs : Int) = -n := by omega
    simp only [inUnits, signed, hneg, hunit, decide_true, if_true, Int.natCast_mul,
      Int.natCast_pow, habs]
    rw [Int.neg_mul, Int.neg_neg]
    rfl
  · have habs : (n.natAbs : Int) = n := by omega
    simp [inUnits, signed, hneg, hunit, habs]

theorem compare?_exactly (negative : Bool) (m : Nat) (e n : Int) :
    (finite negative m e).compare? (exactly n) =
      some (compare (inUnits negative m e (min e 0)) (n * 2 ^ (-(min e 0)).toNat)) := by
  rw [exactly, compare?, inUnits_exactly]

theorem Whole.compare?_eq {x : Binary64} {n : Nat} (h : Whole x n) :
    (Number.float x).compare? (.int n) = some .eq := by
  obtain ⟨m, e, rfl, hm⟩ := h
  have hunits := whole_inUnits hm (Int.min_le_left e 0)
  have hone : (min e 0).toNat = 0 := by omega
  rw [hone, Nat.pow_zero, Nat.mul_one] at hunits
  have hcompare : (Number.float (.finite false m e)).compare? (.int n) = _ :=
    compare?_exactly false m e n
  rw [hcompare, inUnits, signed, hunits]
  simp

end Binary64
end Settlement
