import Settlement.Metrics.Basic

/-! What can be recorded. A whole number that is a word has a binary64 number next to it, so it is
observed as units and added as an amount. -/

namespace Settlement

namespace Binary64

theorem ofQuotient_finite (negative : Bool) {num den : Nat} (h : exponentFor num den < 971) :
    ∃ s m e, ofQuotient negative num den = .finite s m e := by
  simp only [ofQuotient]
  generalize hm : divRound _ _ = m
  split
  · exact ⟨_, _, _, rfl⟩
  · by_cases hcarry : m = 2 ^ 53
    · have hnext : ¬ 971 < exponentFor num den + 1 := by omega
      simp only [hcarry, if_true, hnext, if_false]
      exact ⟨_, _, _, rfl⟩
    · have hsame : ¬ 971 < exponentFor num den := by omega
      simp only [hcarry, if_false, hsame]
      exact ⟨_, _, _, rfl⟩

theorem exponentFor_word {n : Nat} (h : n < 2 ^ 64) : exponentFor n 1 < 971 := by
  have hlog : n.log2 < 64 := by
    rcases Nat.eq_zero_or_pos n with rfl | hpos
    · decide
    · exact (Nat.log2_lt (by omega)).2 h
  have hone : Nat.log2 1 = 0 := by decide
  simp only [exponentFor, hone]
  split <;> omega

end Binary64

theorem Number.rounded?_word {n : Int} (hpos : 0 ≤ n) (hlt : n < 2 ^ 64) :
    ∃ r, (Number.int n).rounded? = some r := by
  have hexponent : Binary64.exponentFor n.natAbs 1 < 971 := Binary64.exponentFor_word (by omega)
  obtain ⟨s, m, e, h⟩ := Binary64.ofQuotient_finite (n < 0) hexponent
  have hfinite : Binary64.ofInt n = .finite s m e := h
  exact ⟨.finite s m e, by simp only [rounded?, int?, Option.map_some, hfinite]⟩

namespace Metrics

theorem observed_word {n : Int} (hpos : 0 ≤ n) (hlt : n < 2 ^ 64) :
    ∃ x, observed (.int n) = .ok x := by
  obtain ⟨r, hr⟩ := Number.rounded?_word hpos hlt
  exact ⟨(.int n, r), by simp only [observed, Json.Value.number?, hr]⟩

theorem recordCall_ok {n : Int} (hpos : 0 ≤ n) (hlt : n < 2 ^ 64) (kind : Text) (m : Metrics) :
    (m.recordCall kind (.int n)).1 = .ok () := by
  obtain ⟨x, hx⟩ := observed_word hpos hlt
  have hless : decide (n < 0) = false := decide_eq_false (by omega)
  simp only [recordCall, Json.Value.less_int, hless, hx]

end Metrics
end Settlement
