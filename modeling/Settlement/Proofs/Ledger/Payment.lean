import Settlement.Proofs.Ledger.Granted
import Settlement.Proofs.Program.Completion

/-! What a split transfer does to a ledger. It is two transfers out of one balance, each with a debit
of its own, and goes through exactly if the total is covered and the fee payer signs. Then both legs
have been paid, and otherwise neither. -/

namespace Settlement.Ledger

open Outcome

/-- A split transfer that the validation, the policy and the budget of the ledger accept, with what
they make of it. -/
structure Payment (l : Ledger) (accounts : List AccountView) (data : Bytes)
    (v : SplitTransfer.Valid) (legs : Allocation) : Prop where
  validated : ∃ payload, Operation.route data = .ok (.splitTransfer, payload) ∧
    (SplitTransfer.validate l.program.rules accounts payload).outcome = .ok v
  allocated : l.program.rules.policy.allocate (.ofString v.payload.operationType)
    (.int v.payload.totalAmount.toNat) = .ok legs
  budgeted : (l.program.budget .splitTransfer).Covers (Program.fullPrice .splitTransfer)

section Legs

variable {l s : Ledger} {accounts : List AccountView} {payload : Bytes} {recordView : AccountView}
  {v : SplitTransfer.Valid} {calls : List Call} {a b n : Int}

section Leg

variable (hv : SplitTransfer.Accepted l.program.rules accounts payload recordView v)
  (hne : l.programs.compressedToken ≠ l.programs.token) (hfailing : l.failing = [])

include hv hne

include hfailing

variable (hpayer : v.feePayer.key = v.user.key ∨ v.feePayer.key ∈ signerKeys accounts)
  (hframe : Frame (l.opened accounts) s calls) (hs : s.WholeBalances) (destination : AccountView)

include hpayer hframe hs

end Leg

/-! Both legs, in their order. -/

variable (hv : SplitTransfer.Accepted l.program.rules accounts payload recordView v)
  (hne : l.programs.compressedToken ≠ l.programs.token) (hfailing : l.failing = [])
  (hwhole : l.WholeBalances) (hparties : v.user.key ≠ v.organization.key)
  (htotal : a + b = v.payload.totalAmount.toNat)

include hv hne hfailing hwhole hparties htotal

end Legs

section Payment

variable {l : Ledger} {accounts : List AccountView} {data : Bytes} {v : SplitTransfer.Valid}
  {legs : Allocation} {saved : Snapshot}

theorem Payment.prepared (h : Payment l accounts data v legs) :
    ∃ (recordView : AccountView) (payload : Bytes) (a b : Int) (settled : Settled),
      SplitTransfer.Accepted l.program.rules accounts payload recordView v ∧
      Operation.route data = .ok (.splitTransfer, payload) ∧
      (SplitTransfer.script l.program.rules accounts payload).outcome = .ok settled ∧
      settled.calls = v.calls legs ∧ legs = ⟨.int a, .int b⟩ ∧
      a + b = v.payload.totalAmount.toNat ∧ 0 ≤ b := by
  obtain ⟨payload, route, validated⟩ := h.validated
  obtain ⟨recordView, hv⟩ := SplitTransfer.validate_outcome.1 validated
  obtain ⟨a, b, hlegs, htotal, -, hb⟩ := Policy.allocate_int_legs h.allocated
  obtain ⟨settled, houtcome, hcalls⟩ := SplitTransfer.script_of_validated validated h.allocated
  exact ⟨recordView, payload, a, b, settled, hv, route, houtcome, hcalls, hlegs, htotal, hb⟩

section Either

variable (hsaved : l.snapshot = .ok saved) (hfailing : l.failing = []) (hwhole : l.WholeBalances)
  (hne : l.programs.compressedToken ≠ l.programs.token)
  (hpayment : Payment l accounts data v legs) (hparties : v.user.key ≠ v.organization.key)

include hsaved hfailing hwhole hne hpayment hparties

end Either

end Payment

theorem sample_context :
    (SplitTransfer.validate Sample.program.rules Sample.splitTransferViews
      (Sample.splitTransfer.drop 8)).outcome.toOption.map (fun v =>
        (v.user.key, v.organization.key, v.feePayer.key, v.payload.totalAmount,
          v.payload.operationType)) =
      some (Sample.userKey, Sample.organizationKey, Sample.key 5, 120, "mixed_payment") := by
  decide +kernel

theorem sample_payment (user organization : Int) :
    ∃ v, Payment (Sample.funded user organization) Sample.splitTransferViews Sample.splitTransfer v
        ⟨.int 100, .int 20⟩ ∧
      v.user.key = Sample.userKey ∧ v.organization.key = Sample.organizationKey ∧
      v.feePayer.key = Sample.key 5 ∧ v.payload.totalAmount = 120 := by
  have hcontext := sample_context
  cases hv : (SplitTransfer.validate Sample.program.rules Sample.splitTransferViews
      (Sample.splitTransfer.drop 8)).outcome with
  | error e =>
    rw [hv] at hcontext
    cases hcontext
  | ok v =>
    rw [hv] at hcontext
    obtain ⟨huser, hcontext⟩ := Prod.mk.inj (Option.some.inj hcontext)
    obtain ⟨horganization, hcontext⟩ := Prod.mk.inj hcontext
    obtain ⟨hpayer, hcontext⟩ := Prod.mk.inj hcontext
    obtain ⟨htotal, hoperation⟩ := Prod.mk.inj hcontext
    have hallocated : Sample.program.rules.policy.allocate (.ofString v.payload.operationType)
        (.int v.payload.totalAmount.toNat) = .ok ⟨.int 100, .int 20⟩ := by
      rw [htotal, hoperation]
      decide
    have hbudget : (Sample.program.budget .splitTransfer).Covers
        (Program.fullPrice .splitTransfer) := ⟨.int 30000, rfl, by decide⟩
    exact ⟨v, ⟨⟨_, by decide +kernel, hv⟩, hallocated, hbudget⟩, huser, horganization, hpayer,
      htotal⟩

end Settlement.Ledger
