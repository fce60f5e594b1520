import Settlement.Proofs.Ledger.Burning
import Settlement.Proofs.Program.Budget
import Settlement.Proofs.Program.Completion
import Settlement.Proofs.Validation.BurnVerdicts

/-! What an instruction costs. A receipt shows the full price of its operation, whatever the
accounts, the data and the host were. The price is also the least budget that an instruction settles
under, and one that covers it is never the reason of a failure. -/

namespace Settlement

variable {σ : Type} {host : Host σ} {caller : Bytes}

theorem Json.Value.covers_int {limit n : Int} : (Value.int limit).Covers n ↔ n ≤ limit := by
  have hnumber : (Value.int limit).number? = some (.int limit) := rfl
  simp only [Covers, hnumber, Option.some.injEq, exists_eq_left', Number.less_int,
    decide_eq_false_iff_not, Int.not_lt]

/-! Runs that are finished. What they have charged is covered by the limit. -/

theorem Meter.charge_eq_ok {limit : Json.Value} {used : Int} {units : Nat} {label : Text}
    {m : Meter} (h : (Meter.mk limit (.int used)).charge (.int units) label = (.ok (), m)) :
    limit.Covers (used + units) ∧ m = ⟨limit, .int (used + units)⟩ := by
  simp only [charge, Number.add?_int, Prod.mk.injEq] at h
  obtain ⟨hok, hm⟩ := h
  refine ⟨?_, hm.symm⟩
  cases hlimit : limit.number? with
  | none => simp [hlimit] at hok
  | some x =>
    by_cases hless : x.less (.int (used + units))
    · simp [hlimit, hless, refuse] at hok
    · exact ⟨x, hlimit, Bool.eq_false_iff.2 hless⟩

/-- What a first charge ends in that the limit does not cover: the limit is no number, or the charge
has no room in it. -/
def Meter.shortage (limit : Json.Value) (units : Nat) (label : Text) : Fault :=
  match limit.number? with
  | none => .wrongKind
  | some x => .refused (.outOfCompute (.int units) x label)

theorem Meter.charge_start_of_not_covers {limit : Json.Value} {units : Nat} (label : Text)
    (h : ¬ limit.Covers units) :
    (start limit).charge (.int units) label =
      (.error (shortage limit units label), ⟨limit, .int units⟩) := by
  have hadd : Number.add? 0 (.int units) = some (.int (0 + units)) := Number.add?_int 0 units
  rw [Int.zero_add] at hadd
  simp only [charge, start, hadd, shortage]
  cases hlimit : limit.number? with
  | none => rfl
  | some x =>
    have hless : x.less (.int units) = true := by
      cases hx : x.less (.int units) with
      | true => rfl
      | false => exact absurd ⟨x, hlimit, hx⟩ h
    simp only [hless, if_true]
    rfl

theorem runSteps_covers (steps : List Step) {limit : Json.Value} {used : Int} {s : σ}
    (hlimit : limit.Covers used)
    (hfault : (runSteps host caller steps ⟨limit, .int used⟩ s).fault = none) :
    limit.Covers (used + stepPrice steps) := by
  induction steps generalizing used s with
  | nil => simpa [stepPrice] using hlimit
  | cons step rest ih =>
    cases step with
    | charge units label =>
      have hprice : stepPrice (.charge units label :: rest) = units + stepPrice rest := by
        simp [stepPrice, Step.price]
      rcases hc : (Meter.mk limit (.int used)).charge (.int units) label with ⟨outcome, m⟩
      cases outcome with
      | error e => simp [runSteps, hc] at hfault
      | ok u =>
        obtain ⟨hcovers, rfl⟩ := Meter.charge_eq_ok hc
        simp only [runSteps, hc] at hfault
        have hrest := ih hcovers hfault
        rwa [Int.add_assoc, ← Int.natCast_add, ← hprice] at hrest
    | call c =>
      have hprice : stepPrice (.call c :: rest) = stepPrice rest := by
        simp [stepPrice, Step.price]
      rcases hc : host.invoke caller c s with ⟨answer, t⟩
      cases answer with
      | error e => simp [runSteps, hc] at hfault
      | ok u =>
        simp only [runSteps, hc] at hfault
        rw [hprice]
        exact ih hlimit hfault

namespace Program

variable {p : Program} {accounts : List AccountView} {data payload : Bytes}
  {operation : Operation} {metrics : Option Metrics} {s : σ}

theorem process_of_not_covers (host : Host σ) (accounts : List AccountView)
    (metrics : Option Metrics) (s : σ) (route : Operation.route data = .ok (operation, payload))
    (h : ¬ (p.budget operation).Covers Cost.baseInstruction) :
    p.process host accounts data metrics s =
      rejected (Meter.shortage (p.budget operation) Cost.baseInstruction
        (Text.of "base_instruction")) (.int Cost.baseInstruction) metrics s := by
  simp only [process, route, Meter.charge_start_of_not_covers _ h]

/-- A receipt says which script has been run to its end. All of it follows from the rules, the
accounts and the data. -/
theorem process_receipt {receipt : Receipt}
    (h : (p.process host accounts data metrics s).outcome = .ok receipt) :
    ∃ operation payload settled, Operation.route data = .ok (operation, payload) ∧
      (operation.script p.rules accounts payload).outcome = .ok settled ∧
      (p.budget operation).Covers (fullPrice operation) ∧
      receipt = ⟨operation, settled.calls, .int (fullPrice operation), settled.allocation⟩ := by
  cases hroute : Operation.route data with
  | error r =>
    simp only [process, hroute, rejected] at h
    cases h
  | ok routed =>
    obtain ⟨operation, payload⟩ := routed
    by_cases hbase : (p.budget operation).Covers Cost.baseInstruction
    · rw [process_of_covers host accounts metrics s hroute hbase, conclude_outcome] at h
      simp only [Run.outcome] at h
      split at h
      · cases h
      · next hfault =>
        cases houtcome : (operation.script p.rules accounts payload).outcome with
        | error e =>
          rw [houtcome] at h
          cases h
        | ok settled =>
          rw [houtcome] at h
          have hprice := (operation.script_priced p.rules accounts payload).full settled houtcome
          rw [Script.cost_eq_stepPrice] at hprice
          have hlimit := runSteps_covers _ hbase hfault
          obtain ⟨units, hused, -, hunits⟩ := runSteps_used host p.address
            (operation.script p.rules accounts payload).steps (n := Cost.baseInstruction)
            (m := ⟨p.budget operation, .int Cost.baseInstruction⟩) s rfl
          rw [hunits hfault, hprice] at hused
          rw [hprice] at hlimit
          refine ⟨operation, payload, settled, rfl, houtcome, hlimit, ?_⟩
          rw [← Except.ok.inj h, hused]
          rfl
    · rw [process_of_not_covers host accounts metrics s hroute hbase] at h
      cases h

section Replay

variable {τ : Type} {other : Host τ} {metrics' : Option Metrics} {t : τ} {receipt : Receipt}
  (h : (p.process host accounts data metrics s).outcome = .ok receipt)

include h

/-- Two hosts that both bring an instruction to its end bring it to the same receipt. -/
theorem process_receipt_unique {receipt' : Receipt}
    (h' : (p.process other accounts data metrics' t).outcome = .ok receipt') :
    receipt' = receipt := by
  obtain ⟨operation, payload, settled, hroute, houtcome, -, rfl⟩ := process_receipt h
  obtain ⟨operation', payload', settled', hroute', houtcome', -, rfl⟩ := process_receipt h'
  cases hroute.symm.trans hroute'
  cases houtcome.symm.trans houtcome'
  rfl

/-- Of an instruction that one host brings to its end, the answers to its calls are all that another
host has a say in. -/
theorem process_of_ends {fault : Option Fault}
    (ends : other.Ends p.address receipt.calls t fault) :
    (p.process other accounts data metrics' t).outcome = fault.elim (.ok receipt) .error := by
  obtain ⟨operation, payload, settled, hroute, houtcome, hbudget, hreceipt⟩ := process_receipt h
  have hcalls : receipt.calls = settled.calls := by rw [hreceipt]
  rw [hcalls] at ends
  cases fault with
  | some e => exact process_fails hroute hbudget houtcome ends
  | none =>
    obtain ⟨u, settles⟩ := ends.settles
    obtain ⟨receipt', hok, -⟩ :=
      process_completes hroute hbudget houtcome settles
    rw [hok, process_receipt_unique h hok, Option.elim_none]

end Replay

end Program

/-! Scripts and hosts that have no part in metering. Of a script only the meter of its run can say
that it is out of compute. -/

theorem Outcome.outOfCompute_refuse {α : Type} (r : Refusal) :
    (refuse r : Outcome α).outOfCompute = decide (r.code = .inl .computeBudgetExceeded) := by
  simp only [refuse, Fault.refused, Refusal.signal]
  cases r.code with
  | inl kind => cases kind <;> rfl
  | inr code => rfl

theorem Outcome.outOfCompute_error {α β : Type} (e : Fault) :
    outOfCompute (.error e : Outcome α) = outOfCompute (.error e : Outcome β) := by
  cases e with
  | signal s =>
    cases s with
    | host kind message => cases kind <;> rfl
    | _ => rfl
  | _ => rfl

theorem Outcome.outOfCompute_map {α β : Type} (f : α → β) (x : Outcome α) :
    Outcome.outOfCompute (x.map f) = x.outOfCompute := by
  cases x with
  | ok a => rfl
  | error e => exact outOfCompute_error e

namespace Script

variable {α β : Type}

def Unmetered (s : Script α) : Prop := s.outcome.outOfCompute = false

namespace Unmetered

theorem pure (a : α) : (Pure.pure a : Script α).Unmetered := rfl

theorem charge (units : Nat) (label : String) : (Script.charge units label).Unmetered := rfl

theorem issue (cs : List Call) : (Script.issue cs).Unmetered := rfl

theorem check {x : Except Refusal α}
    (h : ∀ r, x = .error r → r.code ≠ .inl .computeBudgetExceeded) :
    (Script.check x).Unmetered := by
  cases x with
  | ok a => rfl
  | error r => exact (Outcome.outOfCompute_refuse r).trans (decide_eq_false (h r rfl))

theorem require (condition : Bool) {r : Refusal} (h : r.code ≠ .inl .computeBudgetExceeded) :
    (Script.require condition r).Unmetered := by
  cases condition with
  | true => rfl
  | false => exact (Outcome.outOfCompute_refuse r).trans (decide_eq_false h)

theorem judged {s : Script α} {cs : List Condition} {a : α} (h : s.Judged cs a)
    (hcodes : .inl .computeBudgetExceeded ∉ cs.map Condition.code) : s.Unmetered := by
  rw [Unmetered]
  cases houtcome : s.outcome with
  | ok b => rfl
  | error e =>
    obtain ⟨c, r, ⟨before, after, hcs, -, -⟩, hcode, rfl⟩ := h.outcome_eq_error.1 houtcome
    have hmem : c ∈ cs := by
      rw [hcs]
      exact List.mem_append_right _ List.mem_cons_self
    have hne : r.code ≠ .inl .computeBudgetExceeded := by
      rw [hcode]
      rintro hmetered
      exact hcodes (hmetered ▸ List.mem_map_of_mem hmem)
    have hrefuse := Outcome.outOfCompute_refuse (α := α) r
    rwa [decide_eq_false hne] at hrefuse

theorem bind {s : Script α} {f : α → Script β} (hs : s.Unmetered) (hf : ∀ a, (f a).Unmetered) :
    (s >>= f).Unmetered := by
  cases houtcome : s.outcome with
  | ok a => rw [Unmetered, outcome_bind_of_ok houtcome, hf a]
  | error e =>
    rw [Unmetered, houtcome] at hs
    rw [Unmetered, outcome_bind_of_error houtcome, Outcome.outOfCompute_error e, hs]

end Unmetered
end Script

open Outcome Script Validation

theorem SplitTransfer.validate_unmetered (rules : Rules) (accounts : List AccountView)
    (data : Bytes) : (validate rules accounts data).Unmetered :=
  .judged (validate_judged rules accounts data)
    (by simp [conditions, Condition.demand, Condition.readable, Refusal.code])

theorem DirectBurn.validate_unmetered (rules : Rules) (accounts : List AccountView)
    (data : Bytes) : (validate rules accounts data).Unmetered :=
  .judged (validate_judged rules accounts data)
    (by simp [conditions, Condition.demand, Condition.readable, Refusal.code])

theorem Validation.canonicalIdentity_unmetered (rules : Rules) (view : AccountView) (i : Identity)
    (role : Role) : (canonicalIdentity rules view i role).Unmetered := by
  refine .bind ?_ fun _ => .bind (.require _ nofun) fun _ => .pure _
  rw [Unmetered, outcome_attempt]
  cases i.find rules.programs.settlement <;> rfl

/-- The search for the address of the organization may fail, but not for want of compute units. -/
theorem OrganizationBurn.validate_unmetered (rules : Rules) (accounts : List AccountView)
    (data : Bytes) : (validate rules accounts data).Unmetered := by
  refine .bind (.charge _ _) fun _ => ?_
  split
  · refine .bind (.judged (record_judged _ _) (by simp [Condition.demand, Refusal.code]))
      fun _ => ?_
    refine .bind (.require _ nofun) fun _ => .bind (.charge _ _) fun _ => ?_
    refine .bind (.judged (authority_judged _ _ _) (by simp [Condition.demand, Refusal.code]))
      fun _ => ?_
    refine .bind (.require _ nofun) fun _ => .bind (.charge _ _) fun _ => ?_
    refine .bind (.check fun r hr => ?_) fun _ => .bind (.charge _ _) fun _ => ?_
    · rw [decode_code _ r hr]
      nofun
    refine .bind (canonicalIdentity_unmetered _ _ _ _) fun _ => .bind (.charge _ _) fun _ => ?_
    refine .bind (.judged (mint_judged _ _ _) (by simp [Condition.demand, Refusal.code]))
      fun _ => ?_
    refine .bind (.charge _ _) fun _ => .bind (.require _ nofun) fun _ => ?_
    refine .bind (.require _ nofun) fun _ => .bind (.charge _ _) fun _ => ?_
    refine .bind (.require _ nofun) fun _ => .bind ?_ fun _ => .pure _
    exact .judged (memo_judged _) (by simp [Condition.demand, Refusal.code])
  · exact Outcome.outOfCompute_refuse _

theorem Policy.allocate_unmetered (p : Policy) (operation : Json.Value) (total : Int) :
    (attempt (p.allocate operation (.int total))).Unmetered := by
  rw [Unmetered, outcome_attempt]
  cases h : p.allocate operation (.int total) with
  | ok allocation => rfl
  | error e =>
    rw [allocate_int] at h
    simp only [refuse, guard_eq_error] at h
    rcases h with ⟨-, rfl⟩ | ⟨-, h⟩
    · rfl
    · split at h
      · cases h
        rfl
      · simp only [guard_eq_error] at h
        rcases h with ⟨-, rfl⟩ | ⟨-, ⟨-, rfl⟩ | ⟨-, ⟨-, rfl⟩ | ⟨-, h⟩⟩⟩
        · rfl
        · rfl
        · rfl
        · cases h

theorem Operation.script_unmetered (operation : Operation) (rules : Rules)
    (accounts : List AccountView) (data : Bytes) :
    (operation.script rules accounts data).Unmetered := by
  cases operation with
  | splitTransfer =>
    refine .bind (SplitTransfer.validate_unmetered rules accounts data) fun v => ?_
    refine .bind (.charge _ _) fun _ => .bind (Policy.allocate_unmetered _ _ _) fun _ => ?_
    exact .bind (.issue _) fun _ => .pure _
  | directBurn =>
    refine .bind (DirectBurn.validate_unmetered rules accounts data) fun v => ?_
    exact .bind (.issue _) fun _ => .pure _
  | organizationBurn =>
    refine .bind (OrganizationBurn.validate_unmetered rules accounts data) fun v => ?_
    exact .bind (.issue _) fun _ => .pure _

/-- A host that never claims to be out of compute. -/
def Host.Unmetered (host : Host σ) : Prop :=
  ∀ caller c s, (host.invoke caller c s).1.outOfCompute = false

/-- The calls end in some way, and if such a host fails one, then not for want of compute units. -/
theorem Host.Unmetered.ends (h : host.Unmetered) (caller : Bytes) (cs : List Call) (s : σ) :
    ∃ fault, host.Ends caller cs s fault ∧
      ∀ e, fault = some e → Outcome.outOfCompute (.error e : Outcome Unit) = false := by
  induction cs generalizing s with
  | nil => exact ⟨none, .nil, nofun⟩
  | cons c cs ih =>
    rcases hc : host.invoke caller c s with ⟨answer, t⟩
    cases answer with
    | ok u =>
      obtain ⟨fault, ends, hfault⟩ := ih t
      exact ⟨fault, .cons hc ends, hfault⟩
    | error e =>
      have hanswer := h caller c s
      rw [hc] at hanswer
      refine ⟨some e, .failed hc, ?_⟩
      rintro _ ⟨⟩
      exact hanswer

namespace Program

variable {p : Program} {accounts : List AccountView} {data payload : Bytes}
  {operation : Operation} {metrics : Option Metrics} {s : σ}

/-- Under a budget that covers the price, an instruction is never out of compute. -/
theorem process_unmetered (hhost : host.Unmetered)
    (route : Operation.route data = .ok (operation, payload))
    (hbudget : (p.budget operation).Covers (fullPrice operation)) :
    (p.process host accounts data metrics s).outcome.outOfCompute = false := by
  have hprice := (operation.script_priced p.rules accounts payload).bounded
  rw [Script.cost_eq_stepPrice] at hprice
  have hfull : fullPrice operation = Cost.baseInstruction + operation.price := rfl
  obtain ⟨fault, ends, hfault⟩ := hhost.ends p.address
    (stepCalls (operation.script p.rules accounts payload).steps) s
  have hrun := runSteps_of_ends (operation.script p.rules accounts payload).steps
    (m := ⟨p.budget operation, .int Cost.baseInstruction⟩) rfl (hbudget.of_le (by omega)) ends
  rw [process_of_covers host accounts metrics s route (hbudget.of_le (by omega)), conclude_outcome]
  simp only [Outcome.outOfCompute_map, Run.outcome, hrun]
  cases fault with
  | none => exact operation.script_unmetered p.rules accounts payload
  | some e => exact (Outcome.outOfCompute_error e).trans (hfault e rfl)

/-- The cost of a settlement does not depend on its inputs. Every receipt of an operation shows the
same units. With a budget of that many, an instruction is never out of compute, unless its host
says so; with a smaller one it never settles. -/
theorem fixed_cost (p : Program) (host : Host σ) (accounts : List AccountView) (data : Bytes)
    (metrics : Option Metrics) (s : σ) :
    fullPrice .splitTransfer = 8460 ∧ fullPrice .directBurn = 3130 ∧
    fullPrice .organizationBurn = 6100 ∧
    let outcome := (p.process host accounts data metrics s).outcome
    (∀ receipt, outcome = .ok receipt → receipt.units = .int (fullPrice receipt.operation)) ∧
    ∀ operation payload, Operation.route data = .ok (operation, payload) →
      (∀ receipt, outcome = .ok receipt → receipt.operation = operation) ∧
      (host.Unmetered → (p.budget operation).Covers (fullPrice operation) →
        outcome.outOfCompute = false) ∧
      (¬ (p.budget operation).Covers (fullPrice operation) →
        ∀ receipt, outcome ≠ .ok receipt) := by
  refine ⟨rfl, rfl, rfl, fun receipt h => ?_, fun operation payload route => ⟨?_, ?_, ?_⟩⟩
  · obtain ⟨operation, payload, settled, -, -, -, rfl⟩ := process_receipt h
    rfl
  · intro receipt h
    obtain ⟨operation', payload', settled, route', -, -, rfl⟩ := process_receipt h
    cases route.symm.trans route'
    rfl
  · exact fun hhost hbudget => process_unmetered hhost route hbudget
  · intro hshort receipt h
    obtain ⟨operation', payload', settled, route', -, hcovers, rfl⟩ := process_receipt h
    cases route.symm.trans route'
    exact hshort hcovers

theorem sample_burn_route : Operation.route Ledger.Sample.directBurn =
    .ok (.directBurn, Ledger.Sample.directBurn.drop 8) := by
  obtain ⟨-, -, hroute, -⟩ := Ledger.sample_burn_payloads
  exact hroute

/-- What the burn of the sample ledger says of the script that it has run. -/
theorem sample_burn_script : ∃ settled c,
    (Operation.directBurn.script Ledger.Sample.program.rules Ledger.Sample.directBurnViews
      (Ledger.Sample.directBurn.drop 8)).outcome = .ok settled ∧ settled.calls = [c] := by
  have hreceipt := eq_ok_of_isSome Ledger.sample_burn_receipts.2 ⟨.directBurn, [], 0, none⟩
  obtain ⟨⟨saved, hsaved⟩, -⟩ := Ledger.execute_receipt hreceipt
  obtain ⟨operation, payload, settled, route, houtcome, -, -⟩ :=
    process_receipt ((Ledger.execute_of_snapshot hsaved).1.symm.trans hreceipt)
  cases sample_burn_route.symm.trans route
  have hscript := houtcome
  simp only [Operation.script, DirectBurn.script, outcome_bind_eq_ok] at hscript
  obtain ⟨v, -, _, _, hsettled⟩ := hscript
  cases hsettled
  exact ⟨_, v.call, houtcome, rfl⟩

/-- A direct burn settles with a budget of 3130 units, and not with one less. -/
theorem burn_at_its_price :
    let under (units : Int) := (Ledger.Sample.program.withBudgets fun _ => units).process
      (Host.recording .null .null) Ledger.Sample.directBurnViews Ledger.Sample.directBurn none
      ⟨0, []⟩
    (under 3130).outcome.outOfCompute = false ∧
      (∃ receipt, (under 3130).outcome = .ok receipt ∧ receipt.units = .int 3130) ∧
      ∀ receipt, (under 3129).outcome ≠ .ok receipt := by
  intro under
  have hhost : (Host.recording .null .null).Unmetered := fun _ _ _ => rfl
  have hcovers : (Json.Value.int 3130).Covers (fullPrice .directBurn) :=
    Json.Value.covers_int.2 (by decide)
  have hcost (units : Int) := fixed_cost (Ledger.Sample.program.withBudgets fun _ => units)
    (Host.recording .null .null) Ledger.Sample.directBurnViews Ledger.Sample.directBurn none ⟨0, []⟩
  obtain ⟨-, -, -, hunits, hcovered⟩ := hcost 3130
  obtain ⟨-, -, -, -, hshort⟩ := hcost 3129
  obtain ⟨hoperation, hmetered, -⟩ := hcovered _ _ sample_burn_route
  refine ⟨hmetered hhost hcovers, ?_, (hshort _ _ sample_burn_route).2.2 fun h =>
    absurd (Json.Value.covers_int.1 h) (by decide)⟩
  obtain ⟨settled, c, houtcome, hcalls⟩ := sample_burn_script
  have settles : (Host.recording .null .null).Settles Ledger.Sample.program.address settled.calls
      ⟨0, []⟩ ⟨1, [(Ledger.Sample.program.address, c)]⟩ := by
    rw [hcalls]
    exact .cons rfl .nil
  have hcompletes : ∃ receipt, (under 3130).outcome = .ok receipt ∧ receipt.calls = settled.calls :=
    process_completes sample_burn_route hcovers houtcome settles
  obtain ⟨receipt, hreceipt, -⟩ := hcompletes
  refine ⟨receipt, hreceipt, ?_⟩
  rw [hunits receipt hreceipt, hoperation receipt hreceipt]
  rfl

end Program
end Settlement
