import Mathlib.Data.Rat.Floor
import Mathlib.Tactic.Positivity
import Settlement.Proofs.Number.Whole
import Settlement.Proofs.Split.Accepted

/-! Finite numbers as fractions. Numbers compare as their values do, also a whole one with a
binary64 one, and the whole part of a number that is not negative is the floor of its value. -/

namespace Settlement

namespace Binary64

theorem two_zpow_pos (e : Int) : (0 : ℚ) < 2 ^ e := zpow_pos (by decide) e

def value : Binary64 → ℚ
  | .finite negative m e => signed negative m * 2 ^ e
  | _ => 0

theorem value_exactly (n : Int) : (exactly n).value = n := by
  rw [exactly, value, zpow_zero, mul_one, signed]
  by_cases hneg : n < 0
  · have habs : (n.natAbs : Int) = -n := by omega
    simp [hneg, habs]
  · have habs : (n.natAbs : Int) = n := by omega
    simp [hneg, habs]

/-- A value is the same in units that are no larger than its own. -/
theorem value_finite {e unit : Int} (negative : Bool) (m : Nat) (h : unit ≤ e) :
    (finite negative m e).value = inUnits negative m e unit * 2 ^ unit := by
  have hexponent : e = ((e - unit).toNat : Int) + unit := by omega
  have hpower : (2 : ℚ) ^ e = 2 ^ (e - unit).toNat * 2 ^ unit := by
    conv_lhs => rw [hexponent]
    rw [zpow_add₀ two_ne_zero, zpow_natCast]
  cases negative <;> simp [value, inUnits, signed, hpower, mul_assoc]

theorem value_sign {negative : Bool} {m : Nat} {e : Int} :
    0 ≤ (finite negative m e).value ↔ signed negative m = (m : Int) := by
  rw [value, mul_nonneg_iff_of_pos_right (two_zpow_pos e), Int.cast_nonneg_iff]
  cases negative with
  | false => simp [signed]
  | true =>
    simp only [signed, if_true]
    omega

theorem compare?_finite (s t : Bool) (m n : Nat) (e f : Int) :
    ((finite s m e).compare? (finite t n f) = some .lt ↔
        (finite s m e).value < (finite t n f).value) ∧
      ((finite s m e).compare? (finite t n f) = some .eq ↔
        (finite s m e).value = (finite t n f).value) := by
  have hm := value_finite s m (Int.min_le_left e f)
  have hn := value_finite t n (Int.min_le_right e f)
  simp only [compare?, Option.some.injEq, Int.compare_eq_lt, Int.compare_eq_eq]
  generalize min e f = unit at hm hn
  have hpos := two_zpow_pos unit
  rw [hm, hn]
  constructor
  · rw [mul_lt_mul_iff_of_pos_right hpos, Int.cast_lt]
  · rw [mul_left_inj' hpos.ne', Int.cast_inj]

theorem truncate_eq_floor {negative : Bool} {m : Nat} {e : Int}
    (h : 0 ≤ (finite negative m e).value) :
    truncate negative m e = ⌊(finite negative m e).value⌋ := by
  have hsigned {k : Nat} (hk : m = 0 → k = 0) : signed negative k = (k : Int) := by
    have hsign := value_sign.1 h
    cases negative with
    | false => rfl
    | true =>
      simp only [signed, if_true] at hsign ⊢
      omega
  rw [value, hsigned id, truncate]
  by_cases he : 0 ≤ e
  · have hwhole : ((m : Int) : ℚ) * 2 ^ e = ((m * 2 ^ e.toNat : Nat) : Int) := by
      obtain ⟨k, rfl⟩ := Int.eq_ofNat_of_zero_le he
      simp
    rw [if_pos he, hwhole, Int.floor_intCast, hsigned fun hm => by rw [hm, Nat.zero_mul]]
  · have hquotient : ((m : Int) : ℚ) * 2 ^ e = (m : ℚ) / (2 ^ (-e).toNat : Nat) := by
      obtain ⟨k, hk⟩ := Int.eq_ofNat_of_zero_le (a := -e) (by omega)
      have hexponent : e = -k := by omega
      subst hexponent
      simp [div_eq_mul_inv]
    rw [if_neg he, hquotient, Rat.floor_natCast_div_natCast,
      hsigned fun hm => by rw [hm, Nat.zero_div], Int.natCast_ediv]

end Binary64

namespace Number

def value (x : Number) : ℚ := x.exact.value

def Finite (x : Number) : Prop := ∃ negative m e, x.exact = .finite negative m e

variable {x y : Number} {n : Int}

theorem exact_of_int? (h : x.int? = some n) : x.exact = .exactly n := by
  cases x with
  | flag b =>
    cases h
    rfl
  | int k =>
    cases h
    rfl
  | float f => cases h

theorem value_of_int? (h : x.int? = some n) : x.value = n := by
  rw [value, exact_of_int? h, Binary64.value_exactly]

theorem finite_of_int? (h : x.int? = some n) : x.Finite := ⟨_, _, _, exact_of_int? h⟩

/-- Whole numbers compare as they would if they were binary64 ones without a bound. -/
theorem compare?_exact (x y : Number) : x.compare? y = x.exact.compare? y.exact := by
  cases hx : x.int? with
  | none => simp only [compare?, hx]
  | some m =>
    cases hy : y.int? with
    | none => simp only [compare?, hx, hy]
    | some n =>
      have hexactly (k : Int) :
          Binary64.inUnits (decide (k < 0)) k.natAbs 0 (min 0 0) = k := by
        rw [Binary64.inUnits_exactly]
        simp
      simp only [compare?, hx, hy, exact_of_int? hx, exact_of_int? hy, Binary64.exactly,
        Binary64.compare?, hexactly]

theorem less_iff (hx : x.Finite) (hy : y.Finite) : x.less y = true ↔ x.value < y.value := by
  obtain ⟨s, m, e, hm⟩ := hx
  obtain ⟨t, n, f, hn⟩ := hy
  rw [less, beq_iff_eq, compare?_exact, value, value, hm, hn]
  exact (Binary64.compare?_finite s t m n e f).1

theorem lessEq_iff (hx : x.Finite) (hy : y.Finite) : x.lessEq y = true ↔ x.value ≤ y.value := by
  rw [lessEq, Bool.or_eq_true, less_iff hx hy, le_iff_lt_or_eq]
  obtain ⟨s, m, e, hm⟩ := hx
  obtain ⟨t, n, f, hn⟩ := hy
  rw [beq_iff_eq, compare?_exact, value, value, hm, hn]
  exact or_congr_right (Binary64.compare?_finite s t m n e f).2

/-- The whole part of a number that is not negative. -/
theorem whole_eq_floor (hx : x.Finite) (h : 0 ≤ x.value) :
    (Json.Value.ofNumber x).whole = .ok ⌊x.value⌋ := by
  cases hn : x.int? with
  | some n => rw [whole_of_int? hn, value_of_int? hn, Int.floor_intCast]
  | none =>
    obtain ⟨negative, m, e, hx⟩ := hx
    cases x with
    | float f =>
      cases hx
      rw [value, exact, ← Binary64.truncate_eq_floor h]
      rfl
    | _ => cases hn

end Number
end Settlement
