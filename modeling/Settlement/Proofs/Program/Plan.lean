import Settlement.Program.Basic
import Settlement.Proofs.Split.Legs
import Settlement.Proofs.Validation.Accepted

/-! The calls that an instruction wants. They follow from the rules, the accounts and the data, and
there are none unless the whole validation has succeeded. -/

namespace Settlement

namespace Script

/-- A script that makes the calls it reports, and none if it fails. -/
def Faithful (s : Script Settled) : Prop :=
  match s.outcome with
  | .ok settled => s.calls = settled.calls
  | .error _ => s.calls = []

namespace Faithful

variable {α : Type}

theorem calls_of_ok {s : Script Settled} (hs : s.Faithful) {settled : Settled}
    (h : s.outcome = .ok settled) : s.calls = settled.calls := by
  simpa only [Faithful, h] using hs

theorem calls_of_error {s : Script Settled} (hs : s.Faithful) {e : Fault}
    (h : s.outcome = .error e) : s.calls = [] := by
  simpa only [Faithful, h] using hs

theorem bind {s : Script α} {f : α → Script Settled} (hs : s.Silent) (hf : ∀ a, (f a).Faithful) :
    (s >>= f).Faithful := by
  cases h : s.outcome with
  | ok a =>
    have hcalls : (s >>= f).calls = (f a).calls := calls_bind_of_silent hs h
    have houtcome : (s >>= f).outcome = (f a).outcome := outcome_bind_of_ok h
    simpa only [Faithful, hcalls, houtcome] using hf a
  | error e =>
    have hcalls : (s >>= f).calls = s.calls := calls_bind_of_error h
    have houtcome : (s >>= f).outcome = .error e := outcome_bind_of_error h
    simpa only [Faithful, hcalls, houtcome, Silent] using hs

theorem issue (cs : List Call) (allocation : Option Allocation) (summary : Text) :
    (Script.issue cs >>= fun _ => Pure.pure ⟨cs, allocation, summary⟩).Faithful := by
  have hcalls := calls_bind_of_ok (f := fun _ : Unit =>
    (Pure.pure (Settled.mk cs allocation summary) : Script Settled)) (outcome_issue cs)
  have hnone : (Pure.pure (Settled.mk cs allocation summary) : Script Settled).calls = [] := rfl
  rw [calls_issue, hnone, List.append_nil] at hcalls
  exact hcalls

end Faithful
end Script

open Script

theorem SplitTransfer.script_faithful (rules : Rules) (accounts : List AccountView) (data : Bytes) :
    (script rules accounts data).Faithful := by
  refine .bind (validate_silent rules accounts data) fun v => ?_
  refine .bind (.charge _ _) fun _ => .bind (.attempt _) fun allocation => ?_
  exact .issue (v.calls allocation) _ _

theorem DirectBurn.script_faithful (rules : Rules) (accounts : List AccountView) (data : Bytes) :
    (script rules accounts data).Faithful :=
  .bind (validate_silent rules accounts data) fun v => .issue [v.call] _ _

theorem OrganizationBurn.script_faithful (rules : Rules) (accounts : List AccountView)
    (data : Bytes) : (script rules accounts data).Faithful :=
  .bind (validate_silent rules accounts data) fun v => .issue [v.call] _ _

theorem Operation.script_faithful (operation : Operation) (rules : Rules)
    (accounts : List AccountView) (data : Bytes) :
    (operation.script rules accounts data).Faithful := by
  cases operation with
  | splitTransfer => exact SplitTransfer.script_faithful rules accounts data
  | directBurn => exact DirectBurn.script_faithful rules accounts data
  | organizationBurn => exact OrganizationBurn.script_faithful rules accounts data

theorem Policy.allocate_int_legs {p : Policy} {operation : Json.Value} {total : Int}
    {allocation : Allocation} (h : p.allocate operation (.int total) = .ok allocation) :
    ∃ toOrganization toPool : Int, allocation = ⟨.int toOrganization, .int toPool⟩ ∧
      toOrganization + toPool = total ∧ 0 ≤ toOrganization ∧ 0 ≤ toPool := by
  obtain ⟨-, share, -, -, hlegs, -, rfl⟩ := allocate_eq_ok_iff.1 h
  refine ⟨_, _, rfl, ?_, hlegs⟩
  rw [Share.toPool]
  omega

/-- An instruction that has passed the validation of its operation, with the calls it wants. A split
transfer has been allocated as well. -/
inductive Validated (rules : Rules) (accounts : List AccountView) (data : Bytes) :
    List Call → Prop
  | splitTransfer {payload : Bytes} {v : SplitTransfer.Valid} {toOrganization toPool : Int}
      (route : Operation.route data = .ok (.splitTransfer, payload))
      (validated : (SplitTransfer.validate rules accounts payload).outcome = .ok v)
      (allocated : rules.policy.allocate (.ofString v.payload.operationType)
        (.int v.payload.totalAmount.toNat) = .ok ⟨.int toOrganization, .int toPool⟩)
      (total : toOrganization + toPool = v.payload.totalAmount.toNat)
      (parties : accounts[3]? = some v.user ∧ accounts[4]? = some v.organization ∧
        accounts[5]? = some v.incentivePool) :
      Validated rules accounts data [
        { program := v.compressedTokenProgram.key
          kind := .compressedTransfer
          accounts := [.payer v.feePayer.key, .signing v.user.key, .reading v.organization.key,
            .reading v.systemProgram.key]
          amount := .int toOrganization
          signers := [v.userSigner]
          remaining := (accounts.drop 9).map .ofView },
        { program := v.compressedTokenProgram.key
          kind := .compressedTransfer
          accounts := [.payer v.feePayer.key, .signing v.user.key, .reading v.incentivePool.key,
            .reading v.systemProgram.key]
          amount := .int toPool
          signers := [v.userSigner]
          remaining := (accounts.drop 9).map .ofView }]
  | directBurn {payload : Bytes} {v : DirectBurn.Valid}
      (route : Operation.route data = .ok (.directBurn, payload))
      (validated : (DirectBurn.validate rules accounts payload).outcome = .ok v) :
      Validated rules accounts data [
        { program := v.tokenProgram.key
          kind := .tokenBurn
          accounts := [.writing v.tokenAccount.key, .writing v.mint.key,
            .signing v.tokenAccountOwner.key]
          amount := .int v.payload.amount.toNat
          signers := []
          remaining := [] }]
  | organizationBurn {payload : Bytes} {v : OrganizationBurn.Valid}
      (route : Operation.route data = .ok (.organizationBurn, payload))
      (validated : (OrganizationBurn.validate rules accounts payload).outcome = .ok v) :
      Validated rules accounts data [
        { program := v.compressedTokenProgram.key
          kind := .compressedBurn
          accounts := [.payer v.feePayer.key, .signing v.organization.key, .writing v.mint.key,
            .reading v.systemProgram.key]
          amount := .int v.payload.amount.toNat
          signers := [v.organizationSigner]
          remaining := (accounts.drop 7).map .ofView }]

section Validated

variable {rules : Rules} {accounts : List AccountView} {data payload : Bytes} {settled : Settled}

theorem SplitTransfer.validated_of_script
    (route : Operation.route data = .ok (.splitTransfer, payload))
    (h : (SplitTransfer.script rules accounts payload).outcome = .ok settled) :
    Validated rules accounts data settled.calls := by
  simp only [SplitTransfer.script, outcome_bind_eq_ok, outcome_attempt] at h
  obtain ⟨v, hv, _, _, allocation, ha, _, _, hsettled⟩ := h
  obtain ⟨toOrganization, toPool, rfl, htotal, -⟩ := Policy.allocate_int_legs ha
  obtain ⟨recordView, accepted⟩ := SplitTransfer.validate_outcome.1 hv
  have hparties : accounts[3]? = some v.user ∧ accounts[4]? = some v.organization ∧
      accounts[5]? = some v.incentivePool := by
    rw [accepted.accounts_eq]
    exact ⟨rfl, rfl, rfl⟩
  have hremaining : accounts.drop 9 = v.remaining := by
    rw [accepted.accounts_eq]
    rfl
  have hplanned := Validated.splitTransfer route hv ha htotal hparties
  rw [hremaining] at hplanned
  cases hsettled
  exact hplanned

theorem DirectBurn.validated_of_script (route : Operation.route data = .ok (.directBurn, payload))
    (h : (DirectBurn.script rules accounts payload).outcome = .ok settled) :
    Validated rules accounts data settled.calls := by
  simp only [DirectBurn.script, outcome_bind_eq_ok] at h
  obtain ⟨v, hv, _, _, hsettled⟩ := h
  cases hsettled
  exact .directBurn route hv

theorem OrganizationBurn.validated_of_script
    (route : Operation.route data = .ok (.organizationBurn, payload))
    (h : (OrganizationBurn.script rules accounts payload).outcome = .ok settled) :
    Validated rules accounts data settled.calls := by
  simp only [OrganizationBurn.script, outcome_bind_eq_ok] at h
  obtain ⟨v, hv, _, _, hsettled⟩ := h
  obtain ⟨recordView, accepted⟩ := OrganizationBurn.validate_outcome.1 hv
  have hremaining : accounts.drop 7 = v.remaining := by
    rw [accepted.accounts_eq]
    rfl
  have hplanned := Validated.organizationBurn route hv
  rw [hremaining] at hplanned
  cases hsettled
  exact hplanned

theorem validated_of_script {operation : Operation}
    (route : Operation.route data = .ok (operation, payload))
    (h : (operation.script rules accounts payload).outcome = .ok settled) :
    Validated rules accounts data settled.calls := by
  cases operation with
  | splitTransfer => exact SplitTransfer.validated_of_script route h
  | directBurn => exact DirectBurn.validated_of_script route h
  | organizationBurn => exact OrganizationBurn.validated_of_script route h

/-! The scripts of validated instructions, with the calls they end in. -/

theorem SplitTransfer.script_of_validated {v : SplitTransfer.Valid} {allocation : Allocation}
    (hv : (validate rules accounts payload).outcome = .ok v)
    (ha : rules.policy.allocate (.ofString v.payload.operationType)
      (.int v.payload.totalAmount.toNat) = .ok allocation) :
    ∃ settled, (script rules accounts payload).outcome = .ok settled ∧
      settled.calls = v.calls allocation := by
  simp only [script, outcome_bind_eq_ok]
  exact ⟨_, ⟨_, hv, (), rfl, _, ha, (), rfl, rfl⟩, rfl⟩

theorem DirectBurn.script_of_validated {v : DirectBurn.Valid}
    (hv : (validate rules accounts payload).outcome = .ok v) :
    ∃ settled, (script rules accounts payload).outcome = .ok settled ∧
      settled.calls = [v.call] := by
  simp only [script, outcome_bind_eq_ok]
  exact ⟨_, ⟨_, hv, (), rfl, rfl⟩, rfl⟩

theorem OrganizationBurn.script_of_validated {v : OrganizationBurn.Valid}
    (hv : (validate rules accounts payload).outcome = .ok v) :
    ∃ settled, (script rules accounts payload).outcome = .ok settled ∧
      settled.calls = [v.call] := by
  simp only [script, outcome_bind_eq_ok]
  exact ⟨_, ⟨_, hv, (), rfl, rfl⟩, rfl⟩

theorem Validated.script_outcome {calls : List Call} (h : Validated rules accounts data calls) :
    ∃ operation payload, Operation.route data = .ok (operation, payload) ∧
      ∃ settled, (operation.script rules accounts payload).outcome = .ok settled := by
  cases h with
  | splitTransfer route validated allocated =>
    obtain ⟨settled, houtcome, -⟩ := SplitTransfer.script_of_validated validated allocated
    exact ⟨_, _, route, settled, houtcome⟩
  | directBurn route validated =>
    obtain ⟨settled, houtcome, -⟩ := DirectBurn.script_of_validated validated
    exact ⟨_, _, route, settled, houtcome⟩
  | organizationBurn route validated =>
    obtain ⟨settled, houtcome, -⟩ := OrganizationBurn.script_of_validated validated
    exact ⟨_, _, route, settled, houtcome⟩

end Validated

/-- What an instruction wants: the calls of its operation if it passes validation, else none. -/
inductive Plan (rules : Rules) (accounts : List AccountView) (data : Bytes) : List Call → Prop
  | validated {calls : List Call} :
      Validated rules accounts data calls → Plan rules accounts data calls
  | rejected : (∀ calls, ¬ Validated rules accounts data calls) → Plan rules accounts data []

def planned (rules : Rules) (accounts : List AccountView) (data : Bytes) : List Call :=
  match Operation.route data with
  | .ok (operation, payload) => (operation.script rules accounts payload).calls
  | .error _ => []

theorem plan_planned (rules : Rules) (accounts : List AccountView) (data : Bytes) :
    Plan rules accounts data (planned rules accounts data) := by
  cases hroute : Operation.route data with
  | error r =>
    simp only [planned, hroute]
    refine .rejected fun calls h => ?_
    obtain ⟨_, _, hroute', _⟩ := h.script_outcome
    rw [hroute] at hroute'
    cases hroute'
  | ok routed =>
    obtain ⟨operation, payload⟩ := routed
    simp only [planned, hroute]
    have faithful := operation.script_faithful rules accounts payload
    cases houtcome : (operation.script rules accounts payload).outcome with
    | ok settled =>
      rw [faithful.calls_of_ok houtcome]
      exact .validated (validated_of_script hroute houtcome)
    | error e =>
      rw [faithful.calls_of_error houtcome]
      refine .rejected fun calls h => ?_
      obtain ⟨_, _, hroute', settled, houtcome'⟩ := h.script_outcome
      rw [hroute] at hroute'
      cases hroute'
      rw [houtcome] at houtcome'
      cases houtcome'

end Settlement
