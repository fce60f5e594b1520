import Settlement.Proofs.Program.Plan

/-! The calls of a validated instruction: each is of one of three shapes, with a whole amount. -/

namespace Settlement

/-- A call of a whole amount on the accounts that its kind needs. -/
inductive Call.Prepared (c : Call) (n : Int) : Prop
  | transfer {payer source destination system : AccountMeta} :
      c.kind = .compressedTransfer → c.accounts = [payer, source, destination, system] →
      c.amount = .int n → Prepared c n
  | compressedBurn {payer source mint system : AccountMeta} :
      c.kind = .compressedBurn → c.accounts = [payer, source, mint, system] →
      c.amount = .int n → Prepared c n
  | tokenBurn {token mint owner : AccountMeta} :
      c.kind = .tokenBurn → c.accounts = [token, mint, owner] → c.amount = .int n → Prepared c n

theorem Call.Prepared.amount_eq {c : Call} {n : Int} (h : c.Prepared n) : c.amount = .int n := by
  cases h <;> assumption

/-- The amounts of an instruction are whole, and words of eight bytes hold them. -/
theorem Validated.prepared {rules : Rules} {accounts : List AccountView} {data : Bytes}
    {calls : List Call} (h : Validated rules accounts data calls) :
    ∀ c ∈ calls, ∃ n : Int, c.Prepared n ∧ 0 ≤ n ∧ n < 2 ^ 64 := by
  cases h with
  | @splitTransfer payload v a b route validated allocated total parties =>
    obtain ⟨_, _, hlegs, -, ha, hb⟩ := Policy.allocate_int_legs allocated
    cases hlegs
    have hword := v.payload.totalAmount.toNat_lt
    intro c hc
    rcases List.mem_cons.1 hc with rfl | hc
    · exact ⟨a, .transfer rfl rfl rfl, ha, by omega⟩
    · rw [List.mem_singleton.1 hc]
      exact ⟨b, .transfer rfl rfl rfl, hb, by omega⟩
  | @directBurn payload v route validated =>
    have hword := v.payload.amount.toNat_lt
    intro c hc
    rw [List.mem_singleton.1 hc]
    exact ⟨_, .tokenBurn rfl rfl rfl, by omega, by omega⟩
  | @organizationBurn payload v route validated =>
    have hword := v.payload.amount.toNat_lt
    intro c hc
    rw [List.mem_singleton.1 hc]
    exact ⟨_, .compressedBurn rfl rfl rfl, by omega, by omega⟩

end Settlement
