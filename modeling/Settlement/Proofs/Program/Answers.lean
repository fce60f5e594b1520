import Settlement.Proofs.Address.Search
import Settlement.Proofs.Json.Whole
import Settlement.Proofs.Ledger.Transaction
import Settlement.Proofs.Metrics.Recording
import Settlement.Proofs.Program.Course
import Settlement.Proofs.Program.Prepared
import Settlement.Proofs.Split.Accepted
import Settlement.Proofs.Validation.Price
import Settlement.Proofs.Validation.Refusals

/-! What an instruction can end with: a receipt, or a signal. Nothing else comes out of a program
that is configured as it should be, unless it comes out of its host. -/

namespace Settlement

variable {σ : Type}

/-! Hosts and runs. -/

/-- A host that fails with signals only. -/
def Host.Signals (host : Host σ) : Prop :=
  ∀ caller c s e, (host.invoke caller c s).1 = .error e → ∃ signal, e = .signal signal

theorem Host.Signals.runSteps {host : Host σ} (hhost : host.Signals) {caller : Bytes}
    {steps : List Step} {m : Meter} {s : σ} {e : Fault} (hm : m.Counting)
    (h : (Settlement.runSteps host caller steps m s).fault = some e) :
    ∃ signal, e = .signal signal := by
  have ending := runSteps_ending host caller steps s hm
  rcases hrun : Settlement.runSteps host caller steps m s with ⟨fault, handed, meter, t⟩
  rw [hrun] at ending h
  simp only at ending h
  subst h
  cases ending with
  | exhausted r => exact ⟨r.signal, rfl⟩
  | stopped split settles fails => exact hhost _ _ _ e (by rw [fails])

namespace Config

/-- Addresses that are hexadecimal text, budgets that are whole numbers, and ratios of whole numbers
that are accepted. -/
structure WellFormed (c : Config) : Prop where
  programId : ∃ address, c.programId.hex = .ok address
  tokenProgramId : ∃ address, c.tokenProgramId.hex = .ok address
  compressedTokenProgramId : ∃ address, c.compressedTokenProgramId.hex = .ok address
  systemProgramId : ∃ address, c.systemProgramId.hex = .ok address
  budgets : ∀ operation, ∃ n, (c.budget operation).integer? = some n
  ratios : ∀ entry ∈ c.ratios, entry.2.Accepted entry.1

theorem WellFormed.program {c : Config} (hc : c.WellFormed) :
    ∃ p, Program.ofConfig c = .ok p ∧ p.budget = c.budget ∧ p.rules.policy.Divides := by
  obtain ⟨policy, hpolicy, hshares⟩ := Policy.ofRatios_accepted hc.ratios
  obtain ⟨settlement, hsettlement⟩ := hc.programId
  obtain ⟨token, htoken⟩ := hc.tokenProgramId
  obtain ⟨compressedToken, hcompressedToken⟩ := hc.compressedTokenProgramId
  obtain ⟨system, hsystem⟩ := hc.systemProgramId
  refine ⟨⟨⟨⟨settlement, token, compressedToken, system⟩, policy, c.pauseGatesDirectBurn.truthy⟩,
    c.budget⟩, ?_, rfl, fun entry hentry => ?_⟩
  · simp only [Program.ofConfig, Rules.ofConfig, Programs.ofConfig, hpolicy, hsettlement, htoken,
      hcompressedToken, hsystem, Outcome.ok_bind]
    rfl
  · obtain ⟨-, -, hpos⟩ := hshares entry hentry
    omega

end Config

namespace Program

/-- The units used are a whole number that no price exceeds. -/
theorem process_units (p : Program) (host : Host σ) (accounts : List AccountView) (data : Bytes)
    (metrics : Option Metrics) (s : σ) : ∃ units : Nat,
    (p.process host accounts data metrics s).units = .int units ∧ units ≤ 8460 := by
  cases hroute : Operation.route data with
  | error r => exact ⟨0, by simp only [process, hroute]; rfl, by omega⟩
  | ok routed =>
    obtain ⟨operation, payload⟩ := routed
    have hused := (Meter.start (p.budget operation)).charge_used rfl Cost.baseInstruction
      (Text.of "base_instruction")
    rcases hbase : (Meter.start (p.budget operation)).charge (.int Cost.baseInstruction)
      (Text.of "base_instruction") with ⟨base, m⟩
    rw [hbase] at hused
    cases base with
    | error e => exact ⟨100, by simp only [process, hroute, hbase]; exact hused, by omega⟩
    | ok u =>
      obtain ⟨units, hunits, hle, -⟩ := runSteps_used host p.address
        (operation.script p.rules accounts payload).steps s hused
      have hprice := (operation.script_priced p.rules accounts payload).bounded
      rw [Script.cost_eq_stepPrice] at hprice
      have hmost : operation.price ≤ 8360 := by cases operation <;> decide
      refine ⟨100 + units, ?_, by omega⟩
      simp only [process, hroute, hbase, conclude_units, hunits]
      rfl

end Program

end Settlement
