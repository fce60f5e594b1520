import Settlement.Proofs.Program.Plan
import Settlement.Proofs.Script.Trace

/-! How the processing of an instruction ends: before its first call, between two calls, with a call
that fails, or with a receipt for every call of the plan. -/

namespace Settlement

variable {σ τ : Type}

namespace Program

theorem conclude_outcome (operation : Operation) (metrics : Option Metrics) (run : Run σ)
    (outcome : Outcome Settled) :
    (conclude operation metrics run outcome).outcome = outcome.map fun settled =>
      ⟨operation, settled.calls, run.meter.used, settled.allocation⟩ := by
  cases outcome with
  | ok settled => rfl
  | error e => cases e <;> rfl

theorem conclude_handed (operation : Operation) (metrics : Option Metrics) (run : Run σ)
    (outcome : Outcome Settled) :
    (conclude operation metrics run outcome).handed = run.handed := by
  cases outcome with
  | ok settled => rfl
  | error e => cases e <;> rfl

theorem conclude_host (operation : Operation) (metrics : Option Metrics) (run : Run σ)
    (outcome : Outcome Settled) : (conclude operation metrics run outcome).host = run.host := by
  cases outcome with
  | ok settled => rfl
  | error e => cases e <;> rfl

theorem conclude_units (operation : Operation) (metrics : Option Metrics) (run : Run σ)
    (outcome : Outcome Settled) :
    (conclude operation metrics run outcome).units = run.meter.used := by
  cases outcome with
  | ok settled => rfl
  | error e => cases e <;> rfl

inductive Course (p : Program) (host : Host σ) (accounts : List AccountView) (data : Bytes)
    (s : σ) : Outcome Receipt → List Call → σ → Prop
  | rejected {e : Fault} :
      planned p.rules accounts data = [] ∨ e = .wrongKind ∨ (∃ r, e = .refused r) →
      Course p host accounts data s (.error e) [] s
  | exhausted {done rest : List Call} {t : σ} (r : Refusal) :
      planned p.rules accounts data = done ++ rest → host.Settles p.address done s t →
      Course p host accounts data s (.error (.refused r)) done t
  | stopped {done rest : List Call} {c : Call} {t u : σ} {e : Fault} :
      planned p.rules accounts data = done ++ c :: rest → host.Settles p.address done s t →
      host.invoke p.address c t = (.error e, u) →
      Course p host accounts data s (.error e) (done ++ [c]) u
  | settled {receipt : Receipt} {t : σ} :
      receipt.calls = planned p.rules accounts data →
      Validated p.rules accounts data receipt.calls →
      host.Settles p.address receipt.calls s t →
      Course p host accounts data s (.ok receipt) receipt.calls t

variable (p : Program) (host : Host σ) (accounts : List AccountView) (data : Bytes)
  (metrics : Option Metrics) (s : σ)

theorem process_course :
    Course p host accounts data s (p.process host accounts data metrics s).outcome
      (p.process host accounts data metrics s).handed
      (p.process host accounts data metrics s).host := by
  cases hroute : Operation.route data with
  | error r =>
    simp only [process, hroute]
    exact .rejected (.inr (.inr ⟨r, rfl⟩))
  | ok routed =>
    obtain ⟨operation, payload⟩ := routed
    have hplanned : planned p.rules accounts data =
        (operation.script p.rules accounts payload).calls := by
      simp only [planned, hroute]
    have faithful := operation.script_faithful p.rules accounts payload
    rcases hbase : (Meter.start (p.budget operation)).charge (.int Cost.baseInstruction)
      (Text.of "base_instruction") with ⟨base, m⟩
    cases base with
    | error e =>
      simp only [process, hroute, hbase]
      exact .rejected (.inr (Meter.charge_start_error hbase))
    | ok u =>
      have hm := Meter.counting_of_charge_start hbase
      have ending := runSteps_ending host p.address
        (operation.script p.rules accounts payload).steps s hm
      rw [← Script.calls_eq_stepCalls, ← hplanned] at ending
      simp only [process, hroute, hbase, conclude_outcome, conclude_handed, conclude_host]
      rcases hrun : runSteps host p.address (operation.script p.rules accounts payload).steps m s
        with ⟨fault, handed, meter, t⟩
      rw [hrun] at ending
      simp only at ending
      cases ending with
      | finished settles =>
        simp only [Run.outcome]
        cases houtcome : (operation.script p.rules accounts payload).outcome with
        | ok settled =>
          have hcalls : settled.calls = planned p.rules accounts data := by
            rw [hplanned, faithful.calls_of_ok houtcome]
          rw [← hcalls] at settles ⊢
          exact .settled hcalls (validated_of_script hroute houtcome) settles
        | error e =>
          -- A script that fails has made no call, so the run has only charged for it.
          have hnone : planned p.rules accounts data = [] := by
            rw [hplanned, faithful.calls_of_error houtcome]
          rw [hnone] at settles
          cases Host.settles_nil_iff.1 settles
          rw [hnone]
          exact .rejected (.inl hnone)
      | exhausted r split settles => exact .exhausted r split settles
      | stopped split settles fails => exact .stopped split settles fails

theorem process_follow {p : Program} {host : Host σ} {other : Host τ} {R : σ → τ → Prop}
    {accounts : List AccountView} {data : Bytes} {metrics metrics' : Option Metrics} {s : σ} {t : τ}
    {receipt : Receipt}
    (hR : ∀ {c : Call} {s s' : σ} {t : τ}, R s t → host.invoke p.address c s = (.ok (), s') →
      ∃ t', other.invoke p.address c t = (.ok (), t') ∧ R s' t')
    (h : R s t) (hok : (p.process host accounts data metrics s).outcome = .ok receipt) :
    (p.process other accounts data metrics' t).outcome = .ok receipt ∧
      R (p.process host accounts data metrics s).host
        (p.process other accounts data metrics' t).host := by
  cases hroute : Operation.route data with
  | error r =>
    simp only [process, hroute, rejected] at hok
    cases hok
  | ok routed =>
    obtain ⟨operation, payload⟩ := routed
    rcases hbase : (Meter.start (p.budget operation)).charge (.int Cost.baseInstruction)
      (Text.of "base_instruction") with ⟨base, m⟩
    cases base with
    | error e =>
      simp only [process, hroute, hbase, rejected] at hok
      cases hok
    | ok u =>
      simp only [process, hroute, hbase, conclude_outcome, conclude_host] at hok ⊢
      have hfault : (runSteps host p.address (operation.script p.rules accounts payload).steps
          m s).fault = none := by
        cases hf : (runSteps host p.address (operation.script p.rules accounts payload).steps
          m s).fault with
        | none => rfl
        | some e =>
          simp only [Run.outcome, hf] at hok
          cases hok
      obtain ⟨hfault', hmeter, hhost⟩ := runSteps_follow hR _ m h hfault
      refine ⟨?_, hhost⟩
      rw [← hok, hmeter]
      simp only [Run.outcome, hfault, hfault']

end Program

/-! Instructions that are processed by the image of a host. A monitor does not change them. -/

/-- The same end and the same log, with the image of the state. -/
structure Processed.Image (f : σ → τ) (done : Processed σ) (other : Processed τ) : Prop where
  outcome : other.outcome = done.outcome
  handed : other.handed = done.handed
  units : other.units = done.units
  host : other.host = f done.host
  log : other.log = done.log

theorem Program.conclude_image (f : σ → τ) (operation : Operation)
    (metrics metrics' : Option Metrics) (run : Run σ) (outcome : Outcome Settled) :
    (conclude operation metrics run outcome).Image f
      (conclude operation metrics' ⟨run.fault, run.handed, run.meter, f run.host⟩ outcome) := by
  cases outcome with
  | ok settled => exact ⟨rfl, rfl, rfl, rfl, rfl⟩
  | error e => cases e <;> exact ⟨rfl, rfl, rfl, rfl, rfl⟩

theorem Host.Image.process {host : Host σ} {other : Host τ} {f : σ → τ} (h : host.Image f other)
    (p : Program) (accounts : List AccountView) (data : Bytes) (metrics metrics' : Option Metrics)
    (s : σ) :
    (p.process host accounts data metrics s).Image f
      (p.process other accounts data metrics' (f s)) := by
  cases hroute : Operation.route data with
  | error r =>
    simp only [Program.process, hroute]
    exact ⟨rfl, rfl, rfl, rfl, rfl⟩
  | ok routed =>
    obtain ⟨operation, payload⟩ := routed
    rcases hbase : (Meter.start (p.budget operation)).charge (.int Cost.baseInstruction)
      (Text.of "base_instruction") with ⟨base, m⟩
    cases base with
    | error e =>
      simp only [Program.process, hroute, hbase]
      exact ⟨rfl, rfl, rfl, rfl, rfl⟩
    | ok u =>
      simp only [Program.process, hroute, hbase, h.runSteps p.address]
      exact Program.conclude_image f operation metrics metrics' _ _

end Settlement
