import Settlement.Proofs.Ledger.Balances
import Settlement.Proofs.Metrics.Recording
import Settlement.Proofs.Number.Whole

/-! What the counters of a monitor show. A recorded call adds one and its amount to the counters of
its kind and leaves all others as they are; the amounts stay exact while their sum is no more than
`2 ^ 53`. -/

namespace Settlement

/-- The amounts of the calls of a kind, in the order of the calls. -/
def amountsOf (kind : Text) (calls : List Call) : List Int :=
  (calls.filter fun c => c.kind.name = kind).map (·.amount.count)

theorem amountsOf_append (kind : Text) (cs ds : List Call) :
    amountsOf kind (cs ++ ds) = amountsOf kind cs ++ amountsOf kind ds := by
  rw [amountsOf, List.filter_append, List.map_append]
  rfl

theorem amountsOf_singleton {kind : Text} {c : Call} {n : Int} (hn : c.amount = .int n) :
    amountsOf kind [c] = if c.kind.name = kind then [n] else [] := by
  by_cases hkind : c.kind.name = kind
  · simp [amountsOf, hkind, hn, Json.Value.count]
  · simp [amountsOf, hkind]

/-- A call of a whole amount that a word of eight bytes holds. -/
def Call.Measured (c : Call) : Prop := ∃ n : Int, c.amount = .int n ∧ 0 ≤ n ∧ n < 2 ^ 64

theorem amountsOf_nonneg {calls : List Call} (h : ∀ c ∈ calls, c.Measured) (kind : Text) :
    0 ≤ (amountsOf kind calls).sum := by
  induction calls with
  | nil => exact Int.le_refl 0
  | cons c rest ih =>
    obtain ⟨n, hn, hpos, -⟩ := h c List.mem_cons_self
    have hrest := ih fun d hd => h d (List.mem_cons_of_mem _ hd)
    have hsplit := amountsOf_append kind [c] rest
    rw [List.singleton_append] at hsplit
    rw [hsplit, amountsOf_singleton hn]
    split
    · rw [List.singleton_append, List.sum_cons]
      omega
    · exact hrest

namespace Metrics

/-- How many instructions of an operation have ended with a status. -/
def instructionCount (m : Metrics) (operation status : Text) : Nat :=
  (m.instructions.get? (operation, status)).getD 0

def callCount (m : Metrics) (kind : Text) : Nat := (m.calls.get? kind).getD 0

def amountTotal (m : Metrics) (kind : Text) : Binary64 := (m.amounts.get? kind).getD .zero

/-! Recording an instruction. -/

section Instructions

variable (operation status : Text) (units latency : Json.Value) (m : Metrics)

theorem recordInstruction_frame :
    (m.recordInstruction operation status units latency).2.instructions =
        m.instructions.update (operation, status) 0 (· + 1) ∧
      (m.recordInstruction operation status units latency).2.calls = m.calls ∧
      (m.recordInstruction operation status units latency).2.amounts = m.amounts := by
  simp only [recordInstruction]
  cases observed units with
  | error e => exact ⟨rfl, rfl, rfl⟩
  | ok u =>
    cases observed latency with
    | error e => exact ⟨rfl, rfl, rfl⟩
    | ok t => exact ⟨rfl, rfl, rfl⟩

theorem callCount_recordInstruction (kind : Text) :
    (m.recordInstruction operation status units latency).2.callCount kind = m.callCount kind := by
  rw [callCount, (recordInstruction_frame operation status units latency m).2.1]
  rfl

theorem amountTotal_recordInstruction (kind : Text) :
    (m.recordInstruction operation status units latency).2.amountTotal kind =
      m.amountTotal kind := by
  rw [amountTotal, (recordInstruction_frame operation status units latency m).2.2]
  rfl

theorem instructionCount_recordInstruction_self :
    (m.recordInstruction operation status units latency).2.instructionCount operation status =
      m.instructionCount operation status + 1 := by
  rw [instructionCount, (recordInstruction_frame operation status units latency m).1,
    Children.get?_update_self]
  rfl

theorem instructionCount_recordInstruction_of_ne {other name : Text}
    (h : (other, name) ≠ (operation, status)) :
    (m.recordInstruction operation status units latency).2.instructionCount other name =
      m.instructionCount other name := by
  rw [instructionCount, (recordInstruction_frame operation status units latency m).1,
    Children.get?_update_of_ne h]
  rfl

end Instructions

/-! Recording calls. -/

theorem recordCall_word {n : Int} (hpos : 0 ≤ n) (hlt : n < 2 ^ 64) (kind : Text) (m : Metrics) :
    (m.recordCall kind (.int n)).2 = { m with
      calls := m.calls.update kind 0 (· + 1)
      amounts := (m.amounts.update kind .zero id).update kind .zero (·.add (.ofInt n)) } := by
  obtain ⟨x, hx⟩ := Number.rounded?_word hpos hlt
  have hrounded : x = Binary64.ofInt n := by
    simp only [Number.rounded?, Number.int?, Option.map_some] at hx
    split at hx
    · next hfinite =>
      rw [← Option.some.inj hx]
      exact (Option.some.inj hfinite).symm
    · cases hx
  have hless : decide (n < 0) = false := decide_eq_false (by omega)
  simp only [recordCall, Json.Value.less_int, hless, observed, Json.Value.number?, hx, hrounded]

theorem recordCall_frame (kind : Text) (amount : Json.Value) (m : Metrics) :
    (m.recordCall kind amount).2.instructions = m.instructions ∧
      (m.recordCall kind amount).2.units = m.units := by
  simp only [recordCall]
  split
  · exact ⟨rfl, rfl⟩
  · exact ⟨rfl, rfl⟩
  · cases observed amount <;> exact ⟨rfl, rfl⟩

theorem recordCalls_frame (calls : List (Text × Json.Value)) (m : Metrics) :
    (m.recordCalls calls).2.instructions = m.instructions ∧
      (m.recordCalls calls).2.units = m.units := by
  induction calls generalizing m with
  | nil => exact ⟨rfl, rfl⟩
  | cons c rest ih =>
    have hfirst := recordCall_frame c.1 c.2 m
    rcases hrecord : m.recordCall c.1 c.2 with ⟨answer, next⟩
    rw [hrecord] at hfirst
    simp only [recordCalls, hrecord]
    cases answer with
    | ok u => exact ⟨(ih next).1.trans hfirst.1, (ih next).2.trans hfirst.2⟩
    | error e => exact hfirst

/-- The counters of calls show these calls. -/
structure Tallies (m : Metrics) (calls : List Call) : Prop where
  measured : ∀ c ∈ calls, c.Measured
  counts : ∀ kind, m.callCount kind = (amountsOf kind calls).length
  totals : ∀ kind, (amountsOf kind calls).sum ≤ 2 ^ 53 →
    (m.amountTotal kind).Whole (amountsOf kind calls).sum.toNat

theorem empty_tallies : empty.Tallies [] where
  measured := nofun
  counts _ := rfl
  totals _ _ := Binary64.whole_zero

theorem Tallies.of_readings {m m' : Metrics} {calls : List Call} (h : m.Tallies calls)
    (hcounts : ∀ kind, m'.callCount kind = m.callCount kind)
    (htotals : ∀ kind, m'.amountTotal kind = m.amountTotal kind) : m'.Tallies calls where
  measured := h.measured
  counts kind := (hcounts kind).trans (h.counts kind)
  totals kind hle := by
    rw [htotals kind]
    exact h.totals kind hle

theorem Tallies.recordCall {m : Metrics} {calls : List Call} {c : Call} (h : m.Tallies calls)
    (hc : c.Measured) : (m.recordCall c.kind.name c.amount).2.Tallies (calls ++ [c]) := by
  obtain ⟨n, hn, hpos, hlt⟩ := hc
  rw [hn, recordCall_word hpos hlt]
  constructor
  · intro d hd
    rcases List.mem_append.1 hd with hd | hd
    · exact h.measured d hd
    · rw [List.mem_singleton.1 hd]
      exact ⟨n, hn, hpos, hlt⟩
  · intro kind
    rw [amountsOf_append, amountsOf_singleton hn, List.length_append, ← h.counts kind, callCount]
    by_cases hkind : c.kind.name = kind
    · subst hkind
      rw [Children.get?_update_self, if_pos rfl]
      rfl
    · rw [Children.get?_update_of_ne (Ne.symm hkind), if_neg hkind]
      rfl
  · intro kind hle
    have hbefore := amountsOf_nonneg h.measured kind
    have htotal := h.totals kind
    rw [amountsOf_append, amountsOf_singleton hn, List.sum_append] at hle ⊢
    rw [amountTotal] at htotal ⊢
    by_cases hkind : c.kind.name = kind
    · subst hkind
      rw [if_pos rfl, List.sum_singleton] at hle ⊢
      have hadded := (htotal (by omega)).add (Binary64.whole_ofInt (n := n.toNat) (by omega))
        (by omega)
      rw [Int.toNat_of_nonneg hpos] at hadded
      rw [Children.get?_update_self, Children.get?_update_self, Int.toNat_add hbefore hpos]
      exact hadded
    · rw [if_neg hkind, List.sum_nil, Int.add_zero] at hle ⊢
      rw [Children.get?_update_of_ne (Ne.symm hkind), Children.get?_update_of_ne (Ne.symm hkind)]
      exact htotal hle

theorem Tallies.recordCalls {m : Metrics} {calls : List Call} (h : m.Tallies calls)
    {cs : List Call} (hcs : ∀ c ∈ cs, c.Measured) :
    (m.recordCalls (cs.map fun c => (c.kind.name, c.amount))).2.Tallies (calls ++ cs) := by
  induction cs generalizing m calls with
  | nil =>
    rw [List.append_nil]
    exact h
  | cons c rest ih =>
    have hfirst := h.recordCall (hcs c List.mem_cons_self)
    obtain ⟨n, hn, hpos, hlt⟩ := hcs c List.mem_cons_self
    have hok := recordCall_ok hpos hlt c.kind.name m
    rw [← hn] at hok
    rcases hrecord : m.recordCall c.kind.name c.amount with ⟨answer, next⟩
    rw [hrecord] at hfirst hok
    cases hok
    have hrest := ih hfirst fun d hd => hcs d (List.mem_cons_of_mem _ hd)
    simpa only [List.map_cons, Metrics.recordCalls, hrecord, List.append_assoc,
      List.singleton_append] using hrest

end Metrics
end Settlement
