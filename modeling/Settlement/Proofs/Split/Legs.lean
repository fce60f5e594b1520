import Settlement.Split.Policy
import Settlement.Proofs.Fault.Outcome

/-! The legs of a divided total. The organization's leg is a quotient rounded down, so it grows with
the total, and dividing a total in parts takes less than one unit a part from it. The pool's leg is
what remains, and it grows with the total too, because no share is more than the whole. -/

namespace Settlement

namespace Share

/-- What the organization receives of a total. -/
def toOrganization (s : Share) (total : Int) : Int := (total * s.numerator).fdiv s.denominator

/-- What is left of a total for the pool. -/
def toPool (s : Share) (total : Int) : Int := total - s.toOrganization total

/-- A share between nothing and the whole. -/
structure IsFraction (s : Share) : Prop where
  nonneg : 0 ≤ s.numerator
  le : s.numerator ≤ s.denominator
  pos : 0 < s.denominator

variable {s : Share} {t u q : Int}

section Positive

variable (hpos : 0 < s.denominator)

include hpos

theorem le_toOrganization_iff : q ≤ s.toOrganization t ↔ q * s.denominator ≤ t * s.numerator := by
  rw [toOrganization, Int.fdiv_eq_ediv_of_nonneg _ (Int.le_of_lt hpos)]
  exact Int.le_ediv_iff_mul_le hpos

theorem toOrganization_lt_iff : s.toOrganization t < q ↔ t * s.numerator < q * s.denominator := by
  rw [← Int.not_le, le_toOrganization_iff hpos, Int.not_le]

/-- The leg of the organization is the only quotient with a remainder below the denominator. -/
theorem eq_toOrganization_iff : q = s.toOrganization t ↔
    q * s.denominator ≤ t * s.numerator ∧ t * s.numerator < (q + 1) * s.denominator := by
  rw [← le_toOrganization_iff hpos, ← toOrganization_lt_iff hpos]
  omega

/-- Two totals in one leave at most one unit more to the organization. -/
theorem toOrganization_add :
    s.toOrganization t + s.toOrganization u ≤ s.toOrganization (t + u) ∧
      s.toOrganization (t + u) ≤ s.toOrganization t + s.toOrganization u + 1 := by
  obtain ⟨hlow, hhigh⟩ := (eq_toOrganization_iff hpos (t := t)).1 rfl
  obtain ⟨hlow', hhigh'⟩ := (eq_toOrganization_iff hpos (t := u)).1 rfl
  constructor
  · rw [le_toOrganization_iff hpos, Int.add_mul, Int.add_mul]
    omega
  · refine Int.le_of_lt_add_one ?_
    rw [toOrganization_lt_iff hpos, Int.add_mul]
    have hsum : (s.toOrganization t + s.toOrganization u + 1 + 1) * s.denominator =
        (s.toOrganization t + 1) * s.denominator + (s.toOrganization u + 1) * s.denominator := by
      rw [← Int.add_mul]
      congr 1
      omega
    omega

/-- Parts that are divided one by one leave the organization less than one unit a part short of what
their sum gives it. -/
theorem toOrganization_sum (t : Int) (parts : List Int) :
    (((t :: parts).map s.toOrganization).sum ≤ s.toOrganization (t :: parts).sum ∧
      s.toOrganization (t :: parts).sum ≤
        ((t :: parts).map s.toOrganization).sum + parts.length) := by
  induction parts generalizing t with
  | nil => simp
  | cons u rest ih =>
    obtain ⟨hleast, hmost⟩ := ih u
    obtain ⟨hlow, hhigh⟩ := toOrganization_add hpos (t := t) (u := (u :: rest).sum)
    rw [List.map_cons, List.sum_cons, List.sum_cons (l := u :: rest), List.length_cons]
    omega

end Positive

theorem sum_toPool (s : Share) (parts : List Int) :
    (parts.map s.toPool).sum = parts.sum - (parts.map s.toOrganization).sum := by
  induction parts with
  | nil => rfl
  | cons t rest ih =>
    simp only [List.map_cons, List.sum_cons, ih, toPool]
    omega

namespace IsFraction

variable (h : s.IsFraction)

include h

theorem toOrganization_mono (hle : t ≤ u) : s.toOrganization t ≤ s.toOrganization u := by
  obtain ⟨hlow, -⟩ := (eq_toOrganization_iff h.pos (t := t)).1 rfl
  rw [le_toOrganization_iff h.pos]
  exact Int.le_trans hlow (Int.mul_le_mul_of_nonneg_right hle h.nonneg)

/-- What is added to a total gives the organization no more than itself. -/
theorem toPool_mono (hle : t ≤ u) : s.toPool t ≤ s.toPool u := by
  have hgrowth : s.toOrganization u < s.toOrganization t + 1 + (u - t) := by
    obtain ⟨-, hhigh⟩ := (eq_toOrganization_iff h.pos (t := t)).1 rfl
    rw [toOrganization_lt_iff h.pos]
    calc u * s.numerator
        = t * s.numerator + (u - t) * s.numerator := by
          rw [← Int.add_mul]
          congr 1
          omega
      _ ≤ t * s.numerator + (u - t) * s.denominator :=
          Int.add_le_add_left (Int.mul_le_mul_of_nonneg_left h.le (by omega)) _
      _ < (s.toOrganization t + 1) * s.denominator + (u - t) * s.denominator :=
          Int.add_lt_add_right hhigh _
      _ = (s.toOrganization t + 1 + (u - t)) * s.denominator := (Int.add_mul _ _ _).symm
  simp only [toPool]
  omega

theorem legs_nonneg (hle : 0 ≤ t) : 0 ≤ s.toOrganization t ∧ 0 ≤ s.toPool t := by
  have hzero : s.toOrganization 0 = 0 := by simp [toOrganization]
  have horganization := h.toOrganization_mono hle
  have hpool := h.toPool_mono hle
  simp only [toPool] at *
  omega

end IsFraction
end Share

/-- A division of a whole total succeeds if both legs are words. Legs always sum to the total. -/
theorem Policy.allocate_eq_ok_iff {p : Policy} {operation : Json.Value} {total : Int}
    {a : Allocation} : p.allocate operation (.int total) = .ok a ↔
      total ≠ 0 ∧ ∃ s, p.share? operation = some s ∧ s.denominator ≠ 0 ∧
        (0 ≤ s.toOrganization total ∧ 0 ≤ s.toPool total) ∧
        (s.toOrganization total ≤ maxAmount ∧ s.toPool total ≤ maxAmount) ∧
        a = ⟨.int (s.toOrganization total), .int (s.toPool total)⟩ := by
  simp only [allocate_int, refuse, Outcome.guard_eq_ok]
  refine and_congr_right fun _ => ?_
  cases p.share? operation with
  | none => simp
  | some s =>
    simp only [Outcome.guard_eq_ok, not_or, Int.not_lt, Except.ok.injEq, Option.some.injEq,
      exists_eq_left', eq_comm (b := a)]
    rfl

end Settlement
