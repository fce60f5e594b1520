import Settlement.Proofs.Json.Whole
import Settlement.Proofs.Number.Whole
import Settlement.Proofs.Program.Course
import Settlement.Proofs.Split.Accepted
import Settlement.Proofs.Validation.Price

/-! Instructions that are completed. A budget that covers the price stops no run, and if the host
answers every call, a validated instruction ends with its receipt. -/

namespace Settlement

variable {σ : Type}

/-! Limits. A budget may be a number of any kind. -/

/-- What is no less than a whole number is no less than a smaller one. -/
theorem Number.not_less_of_le {x : Number} {m n : Int} (h : x.less (.int n) = false)
    (hle : m ≤ n) : x.less (.int m) = false := by
  cases x with
  | flag b =>
    rw [less_of_int? rfl rfl, decide_eq_false_iff_not] at *
    omega
  | int k =>
    rw [less_of_int? rfl rfl, decide_eq_false_iff_not] at *
    omega
  | float f =>
    cases f with
    | nan => rfl
    | infinite negative => exact h
    | finite negative s e =>
      have hcompare (k : Int) : (float (.finite negative s e)).less (int k) =
          decide (Binary64.inUnits negative s e (min e 0) < k * 2 ^ (-(min e 0)).toNat) := by
        have hk : (float (.finite negative s e)).compare? (int k) = _ :=
          Binary64.compare?_exactly negative s e k
        rw [less, hk, Bool.eq_iff_iff]
        simp [Int.compare_eq_lt]
      rw [hcompare, decide_eq_false_iff_not] at *
      have hscaled : m * 2 ^ (-(min e 0)).toNat ≤ n * 2 ^ (-(min e 0)).toNat :=
        Int.mul_le_mul_of_nonneg_right hle (Int.pow_nonneg (by omega))
      omega

/-- A limit that is a number and no less than so many units. -/
def Json.Value.Covers (limit : Value) (units : Int) : Prop :=
  ∃ x, limit.number? = some x ∧ x.less (.int units) = false

theorem Json.Value.Covers.of_le {limit : Value} {m n : Int} (h : limit.Covers n) (hle : m ≤ n) :
    limit.Covers m := by
  obtain ⟨x, hx, hless⟩ := h
  exact ⟨x, hx, Number.not_less_of_le hless hle⟩

theorem Meter.start_covers {units : Nat} {limit : Int} (h : units ≤ limit) :
    (start (.int limit)).limit.Covers (0 + units) := by
  refine ⟨.int limit, rfl, ?_⟩
  rw [Number.less_int, decide_eq_false_iff_not]
  omega

theorem Meter.charge_of_covers {m : Meter} {used : Int} (hused : m.used = .int used) (units : Nat)
    (label : Text) (hlimit : m.limit.Covers (used + units)) :
    m.charge (.int units) label = (.ok (), ⟨m.limit, .int (used + units)⟩) := by
  obtain ⟨x, hx, hless⟩ := hlimit
  simp only [charge, hused, Number.add?_int, hx, hless, Bool.false_eq_true, if_false]

theorem Meter.charge_start_of_covers {limit : Json.Value} {units : Nat} (label : Text)
    (h : limit.Covers units) :
    (start limit).charge (.int units) label = (.ok (), ⟨limit, .int units⟩) := by
  have hused : (start limit).used = .int 0 := rfl
  have hlimit : (start limit).limit.Covers (0 + units) := by
    rw [Int.zero_add]
    exact h
  rw [charge_of_covers hused units label hlimit, Int.zero_add]
  rfl

/-- The host's own answers decide a run whose price the limit covers. -/
theorem runSteps_of_ends {host : Host σ} {caller : Bytes} (steps : List Step) {m : Meter}
    {used : Int} {s : σ} {fault : Option Fault} (hused : m.used = .int used)
    (hlimit : m.limit.Covers (used + stepPrice steps))
    (ends : host.Ends caller (stepCalls steps) s fault) :
    (runSteps host caller steps m s).fault = fault := by
  induction steps generalizing m used s with
  | nil =>
    cases ends
    rfl
  | cons step rest ih =>
    cases step with
    | charge units label =>
      have hprice : stepPrice (.charge units label :: rest) = units + stepPrice rest := by
        simp [stepPrice, Step.price]
      have hcharge := Meter.charge_of_covers hused units label (hlimit.of_le (by omega))
      rw [stepCalls_charge] at ends
      simp only [runSteps, hcharge]
      exact ih rfl (hlimit.of_le (by omega)) ends
    | call c =>
      have hprice : stepPrice (.call c :: rest) = stepPrice rest := by
        simp [stepPrice, Step.price]
      rw [stepCalls_call] at ends
      cases ends with
      | failed hanswer => simp only [runSteps, hanswer]
      | cons hanswer hrest =>
        simp only [runSteps, hanswer]
        exact ih hused (hlimit.of_le (by omega)) hrest

namespace Program

/-- What an operation costs: its script, and the charge that every instruction begins with. -/
def fullPrice (operation : Operation) : Nat := Cost.baseInstruction + operation.price

example : Operation.all.map fullPrice = [8460, 3130, 6100] := by decide

section Process

variable {p : Program} (host : Host σ) {accounts : List AccountView} {data payload : Bytes}
  {operation : Operation} {settled : Settled} (metrics : Option Metrics) (s : σ)
  (route : Operation.route data = .ok (operation, payload))
  (hbudget : (p.budget operation).Covers (fullPrice operation))
  (houtcome : (operation.script p.rules accounts payload).outcome = .ok settled)

variable (accounts) in
/-- What a budget for the base charge leads to: the script is run. -/
theorem process_of_covers (route : Operation.route data = .ok (operation, payload))
    (h : (p.budget operation).Covers Cost.baseInstruction) :
    p.process host accounts data metrics s =
      let script := operation.script p.rules accounts payload
      let run := runSteps host p.address script.steps
        ⟨p.budget operation, .int Cost.baseInstruction⟩ s
      conclude operation metrics run (run.outcome script) := by
  simp only [process, route, Meter.charge_start_of_covers _ h]

include route hbudget houtcome

/-- What a run begins with that a budget covers: the meter after the first charge, which leaves
enough for the script. -/
theorem process_started : ∃ m : Meter, m.used = .int Cost.baseInstruction ∧
    m.limit.Covers (Cost.baseInstruction +
      stepPrice (operation.script p.rules accounts payload).steps) ∧
    stepCalls (operation.script p.rules accounts payload).steps = settled.calls ∧
    let run := runSteps host p.address (operation.script p.rules accounts payload).steps m s
    (p.process host accounts data metrics s).outcome =
      (run.outcome (operation.script p.rules accounts payload)).map fun settled =>
        ⟨operation, settled.calls, run.meter.used, settled.allocation⟩ := by
  have hprice := (operation.script_priced p.rules accounts payload).full settled houtcome
  rw [Script.cost_eq_stepPrice] at hprice
  have hcalls : stepCalls (operation.script p.rules accounts payload).steps = settled.calls := by
    rw [← Script.calls_eq_stepCalls]
    exact (operation.script_faithful p.rules accounts payload).calls_of_ok houtcome
  have hfull : fullPrice operation = Cost.baseInstruction + operation.price := rfl
  have hbase := process_of_covers host accounts metrics s route (hbudget.of_le (by omega))
  refine ⟨⟨p.budget operation, .int Cost.baseInstruction⟩, rfl, hbudget.of_le (by omega),
    hcalls, ?_⟩
  rw [hbase, conclude_outcome]

variable {host metrics s}

theorem process_completes {t : σ} (settles : host.Settles p.address settled.calls s t) :
    ∃ receipt, (p.process host accounts data metrics s).outcome = .ok receipt ∧
      receipt.calls = settled.calls := by
  obtain ⟨m, hused, hlimit, hcalls, hprocess⟩ :=
    process_started host metrics s route hbudget houtcome
  rw [← hcalls] at settles
  have hfault := runSteps_of_ends _ hused hlimit settles.ends
  rw [hprocess, Run.outcome, hfault, houtcome]
  exact ⟨_, rfl, rfl⟩

/-- A call that the host fails is what such a run ends with. -/
theorem process_fails {e : Fault} (ends : host.Ends p.address settled.calls s (some e)) :
    (p.process host accounts data metrics s).outcome = .error e := by
  obtain ⟨m, hused, hlimit, hcalls, hprocess⟩ :=
    process_started host metrics s route hbudget houtcome
  rw [← hcalls] at ends
  have hfault := runSteps_of_ends _ hused hlimit ends
  rw [hprocess, Run.outcome, hfault]
  rfl

end Process

/-- A program that divides every payment of the given types, and whose budgets cover the prices. No
program of the ledger stands in the place of the token program. -/
structure Sufficient (p : Program) (types : List Text) : Prop where
  settlement : p.rules.programs.settlement ≠ p.rules.programs.token
  compressed : p.rules.programs.compressedToken ≠ p.rules.programs.token
  shares : ∀ name ∈ types, ∃ share, p.rules.policy.share? (.text name) = some share ∧
    0 ≤ share.numerator ∧ share.numerator ≤ share.denominator ∧ 0 < share.denominator
  budgets : ∀ operation, (p.budget operation).Covers (fullPrice operation)

end Program

structure Config.Sufficient (c : Config) (programs : Programs) : Prop where
  configured : Programs.ofConfig c = .ok programs
  distinct : [programs.settlement, programs.token, programs.compressedToken,
    programs.system].Nodup
  ratios : ∀ entry ∈ c.ratios, entry.2.Accepted entry.1
  budgets : ∀ operation, (c.budget operation).Covers (Program.fullPrice operation)

theorem Config.Sufficient.program {c : Config} {programs : Programs}
    (hc : c.Sufficient programs) : ∃ p, Program.ofConfig c = .ok p ∧
      p.rules.programs = programs ∧ p.Sufficient (c.ratios.map Prod.fst) := by
  obtain ⟨policy, hpolicy, hshares⟩ := Policy.ofRatios_accepted hc.ratios
  have hnames := Policy.ofRatios_names hpolicy
  obtain ⟨settlement, hsettlement, -⟩ := Outcome.bind_eq_ok.1 hc.configured
  have hdistinct := hc.distinct
  simp only [List.nodup_cons, List.mem_cons, not_or] at hdistinct
  refine ⟨⟨⟨programs, policy, c.pauseGatesDirectBurn.truthy⟩, c.budget⟩, ?_, rfl, ?_⟩
  · simp only [Program.ofConfig, Rules.ofConfig, hsettlement, hpolicy, hc.configured,
      Outcome.ok_bind]
    rfl
  · constructor
    · exact hdistinct.1.1
    · exact Ne.symm hdistinct.2.1.1
    · intro name hname
      rw [← hnames] at hname
      obtain ⟨share, hshare, hmem⟩ := Policy.share?_of_name hname
      exact ⟨share, hshare, hshares _ hmem⟩
    · exact hc.budgets

end Settlement
