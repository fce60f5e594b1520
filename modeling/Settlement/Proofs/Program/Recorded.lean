import Settlement.Proofs.Ledger.Reconciliation
import Settlement.Proofs.Program.Answers
import Settlement.Proofs.Program.Cost

/-! What a monitor learns of an instruction. Whatever it ends with, a receipt or a signal, it counts
once under its status and its units are observed once, unless its budget is below the base charge:
then the monitor is told nothing. -/

namespace Settlement

/-! Observations. -/

namespace Histogram

/-- A histogram with all its buckets. -/
def Complete (h : Histogram) : Prop := h.counts.length = unitBounds.length + 1

theorem empty_complete : empty.Complete := rfl

theorem bucket?_int (n : Int) : ∃ i, bucket? (.int n) = some i ∧ i < unitBounds.length + 1 := by
  have hlast : (Number.int n).lessEq (.float (.infinite false)) = true := rfl
  have hsome : (bucket? (.int n)).isSome = true := by
    rw [bucket?, List.findIdx?_isSome, List.any_append, Bool.or_eq_true]
    exact .inr (List.any_eq_true.2 ⟨_, List.mem_singleton.2 rfl, hlast⟩)
  obtain ⟨i, hi⟩ := Option.isSome_iff_exists.1 hsome
  have hbound := (List.findIdx?_eq_some_iff_findIdx_eq.1 hi).1
  exact ⟨i, hi, by simpa using hbound⟩

theorem sum_modify_succ {counts : List Nat} {i : Nat} (h : i < counts.length) :
    (counts.modify i (· + 1)).sum = counts.sum + 1 := by
  induction counts generalizing i with
  | nil => cases h
  | cons count rest ih =>
    cases i with
    | zero =>
      simp only [List.modify_zero_cons, List.sum_cons]
      omega
    | succ i =>
      have hrest := ih (Nat.lt_of_succ_lt_succ h)
      simp only [List.modify_succ_cons, List.sum_cons, hrest]
      omega

/-- A whole number falls into one bucket. -/
theorem Complete.observe {h : Histogram} (hh : h.Complete) (n : Int) (rounded : Binary64) :
    (h.observe (.int n) rounded).Complete ∧ (h.observe (.int n) rounded).count = h.count + 1 := by
  obtain ⟨i, hi, hbound⟩ := bucket?_int n
  have hlength : i < h.counts.length := by
    rw [hh]
    exact hbound
  simp only [Histogram.observe, hi, Complete, count, List.length_modify]
  exact ⟨hh, sum_modify_succ hlength⟩

end Histogram

namespace Metrics

/-- The compute units of an operation, as they were observed. -/
def unitsOf (m : Metrics) (operation : Text) : Histogram := (m.units.get? operation).getD .empty

/-- The second of two monitors has been told of one instruction more: its counter has risen by one,
its units have been observed, and nothing else is seen in the counters of instructions or in the
histograms of units. -/
structure Recorded (m m' : Metrics) (operation status : Text) (units : Number) : Prop where
  counted : m'.instructionCount operation status = m.instructionCount operation status + 1
  uncounted : ∀ other name, (other, name) ≠ (operation, status) →
    m'.instructionCount other name = m.instructionCount other name
  observed : ∃ rounded, units.rounded? = some rounded ∧
    m'.unitsOf operation = (m.unitsOf operation).observe units rounded
  once : (m.unitsOf operation).Complete → (m'.unitsOf operation).Complete ∧
    (m'.unitsOf operation).count = (m.unitsOf operation).count + 1
  unobserved : ∀ other, other ≠ operation → m'.unitsOf other = m.unitsOf other

theorem recordInstruction_units {units latency : Json.Value} {x : Number} {rounded : Binary64}
    (hunits : Metrics.observed units = .ok (x, rounded)) (operation status : Text) (m : Metrics) :
    (m.recordInstruction operation status units latency).2.units =
      (m.units.update operation .empty id).update operation .empty (·.observe x rounded) := by
  simp only [recordInstruction, hunits]
  cases Metrics.observed latency <;> rfl

theorem recordInstruction_recorded {n : Int} (hpos : 0 ≤ n) (hlt : n < 2 ^ 64)
    (operation status : Text) (latency : Json.Value) (m : Metrics) :
    m.Recorded (m.recordInstruction operation status (.int n) latency).2 operation status
      (.int n) := by
  obtain ⟨rounded, hrounded⟩ := Number.rounded?_word hpos hlt
  have hobserved : Metrics.observed (.int n) = .ok (.int n, rounded) := by
    simp only [Metrics.observed, Json.Value.number?, hrounded]
  have hself : (m.recordInstruction operation status (.int n) latency).2.unitsOf operation =
      (m.unitsOf operation).observe (.int n) rounded := by
    rw [unitsOf, recordInstruction_units hobserved, Children.get?_update_self,
      Children.get?_update_self]
    rfl
  refine ⟨instructionCount_recordInstruction_self _ _ _ _ m,
    fun _ _ hne => instructionCount_recordInstruction_of_ne _ _ _ _ m hne,
    ⟨rounded, hrounded, hself⟩, fun hcomplete => ?_, fun other hne => ?_⟩
  · rw [hself]
    exact hcomplete.observe n rounded
  · rw [unitsOf, recordInstruction_units hobserved, Children.get?_update_of_ne hne,
      Children.get?_update_of_ne hne]
    rfl

theorem Recorded.of_readings {m m' m'' : Metrics} {operation status : Text} {units : Number}
    (h : m.Recorded m' operation status units) (hinstructions : m''.instructions = m'.instructions)
    (hunits : m''.units = m'.units) : m.Recorded m'' operation status units := by
  have hcount (other name : Text) :
      m''.instructionCount other name = m'.instructionCount other name := by
    rw [instructionCount, hinstructions]
    rfl
  have hunitsOf (other : Text) : m''.unitsOf other = m'.unitsOf other := by
    rw [unitsOf, hunits]
    rfl
  constructor
  · rw [hcount, h.counted]
  · intro other name hne
    rw [hcount, h.uncounted other name hne]
  · rw [hunitsOf]
    exact h.observed
  · rw [hunitsOf]
    exact h.once
  · intro other hne
    rw [hunitsOf, h.unobserved other hne]

theorem Recorded.ne {m m' : Metrics} {operation status : Text} {units : Number}
    (h : m.Recorded m' operation status units) : m' ≠ m := by
  rintro rfl
  have hcounted := h.counted
  omega

end Metrics

/-! Instructions. -/

namespace Program

variable {σ : Type}

/-- The status that an instruction counts under: that of its signal, or `ok` for a receipt. -/
def status? : Outcome Receipt → Option Text
  | .ok _ => some (Text.of "ok")
  | .error fault => fault.signal?.map Signal.status

theorem recordSettled_recorded (operation : Operation) {n : Int} (hpos : 0 ≤ n) (hlt : n < 2 ^ 64)
    (calls : List Call) (m : Metrics) :
    m.Recorded (recordSettled operation (.int n) calls m) (Text.of operation.name) (Text.of "ok")
      (.int n) :=
  (Metrics.recordInstruction_recorded hpos hlt _ _ (.int 0) m).of_readings
    (Metrics.recordCalls_frame _ _).1 (Metrics.recordCalls_frame _ _).2

theorem recordAborted_recorded (operation : Operation) {n : Int} (hpos : 0 ≤ n) (hlt : n < 2 ^ 64)
    (signal : Signal) (m : Metrics) :
    m.Recorded (recordAborted operation (.int n) signal m) (Text.of operation.name) signal.status
      (.int n) :=
  Metrics.recordInstruction_recorded hpos hlt _ _ (.int 0) m

/-- A run that has been concluded with a receipt or with a signal has been recorded. -/
theorem conclude_recorded (operation : Operation) (m : Metrics) {run : Run σ} {n : Int}
    (hused : run.meter.used = .int n) (hpos : 0 ≤ n) (hlt : n < 2 ^ 64) {outcome : Outcome Settled}
    {status : Text}
    (hstatus : status? (conclude operation (some m) run outcome).outcome = some status) :
    ∃ m', (conclude operation (some m) run outcome).metrics = some m' ∧
      m.Recorded m' (Text.of operation.name) status
        (conclude operation (some m) run outcome).units := by
  rw [conclude_units, hused]
  cases outcome with
  | ok settled =>
    cases hstatus
    refine ⟨_, rfl, ?_⟩
    rw [hused]
    exact recordSettled_recorded operation hpos hlt settled.calls m
  | error fault =>
    cases fault with
    | signal signal =>
      cases hstatus
      refine ⟨_, rfl, ?_⟩
      rw [hused]
      exact recordAborted_recorded operation hpos hlt signal m
    | _ => cases hstatus

/-- A routed instruction that ends in a receipt or in a signal is recorded once, under its status
and with the units it has used, exactly if its budget covers the base charge. An instruction whose
budget does not is refused for it, and the monitor is not told. -/
theorem process_recorded_iff (p : Program) (host : Host σ) (accounts : List AccountView)
    {data payload : Bytes} {operation : Operation} (m : Metrics) (s : σ) {status : Text}
    (route : Operation.route data = .ok (operation, payload))
    (hstatus : status? (p.process host accounts data (some m) s).outcome = some status) :
    let done := p.process host accounts data (some m) s
    ∃ m', done.metrics = some m' ∧
      (m.Recorded m' (Text.of operation.name) status done.units ↔
        (p.budget operation).Covers Cost.baseInstruction) ∧
      (¬ (p.budget operation).Covers Cost.baseInstruction → m' = m ∧
        ∃ limit, done.outcome = .error (.refused (.outOfCompute (.int Cost.baseInstruction) limit
          (Text.of "base_instruction")))) := by
  intro done
  by_cases hbase : (p.budget operation).Covers Cost.baseInstruction
  · obtain ⟨units, hused, hle⟩ := process_units p host accounts data (some m) s
    have hdone : done = _ := process_of_covers host accounts (some m) s route hbase
    change done.units = _ at hused
    change status? done.outcome = _ at hstatus
    rw [hdone] at hused hstatus ⊢
    rw [conclude_units] at hused
    obtain ⟨m', hmetrics, hrecorded⟩ :=
      conclude_recorded operation m hused (by omega) (by omega) hstatus
    exact ⟨m', hmetrics, ⟨fun _ => hbase, fun _ => hrecorded⟩, fun h => absurd hbase h⟩
  · have hdone : done = _ := process_of_not_covers host accounts (some m) s route hbase
    refine ⟨m, by rw [hdone]; rfl, ⟨fun h => absurd rfl h.ne, fun h => absurd h hbase⟩,
      fun _ => ⟨rfl, ?_⟩⟩
    change status? done.outcome = _ at hstatus
    rw [hdone] at hstatus ⊢
    simp only [rejected, Meter.shortage] at hstatus ⊢
    cases hlimit : (p.budget operation).number? with
    | none =>
      rw [hlimit] at hstatus
      cases hstatus
    | some x => exact ⟨x, rfl⟩

/-- A burn under a budget of 99 units. -/
theorem sample_short (host : Host σ) (accounts : List AccountView) (m : Metrics) (s : σ) :
    let p := Ledger.Sample.program.withBudgets fun _ => 99
    status? (p.process host accounts Ledger.Sample.directBurn (some m) s).outcome =
        some (Text.of "ComputeBudgetExceeded") ∧
      (p.process host accounts Ledger.Sample.directBurn (some m) s).metrics = some m := by
  intro p
  have hbudget : ¬ (p.budget .directBurn).Covers Cost.baseInstruction := fun h =>
    absurd (Json.Value.covers_int.1 h) (by decide)
  rw [process_of_not_covers host accounts (some m) s sample_burn_route hbudget]
  exact ⟨rfl, rfl⟩

/-- A burn whose call fails counts as one, and a burn under a budget of 99 units does not count. -/
theorem burns_recorded_and_unrecorded :
    let name := Text.of Operation.directBurn.name
    let failed := Ledger.Sample.program.process (Host.recording (.int 0) .null)
      Ledger.Sample.directBurnViews Ledger.Sample.directBurn (some .empty) ⟨0, []⟩
    let short := (Ledger.Sample.program.withBudgets fun _ => 99).process Host.absent []
      Ledger.Sample.directBurn (some .empty) ()
    (∃ m, failed.metrics = some m ∧
      Metrics.empty.Recorded m name (Text.of "external_call_failed") failed.units ∧
      (m.unitsOf name).count = 1) ∧
    status? short.outcome = some (Text.of "ComputeBudgetExceeded") ∧
      short.metrics = some .empty := by
  intro name failed short
  obtain ⟨settled, c, houtcome, hcalls⟩ := sample_burn_script
  have ends : (Host.recording (.int 0) .null).Ends Ledger.Sample.program.address settled.calls
      ⟨0, []⟩ (some (.signal (.external c.program .null))) := by
    rw [hcalls]
    exact .failed rfl
  have hfails : failed.outcome = .error (.signal (.external c.program .null)) :=
    process_fails sample_burn_route ⟨.int 30000, rfl, by decide⟩ houtcome ends
  have hfailed : status? failed.outcome = some (Text.of "external_call_failed") := by
    rw [hfails]
    rfl
  have hshort := (sample_short Host.absent [] .empty ()).1
  refine ⟨?_, hshort, ?_⟩
  · obtain ⟨m, hm, hrecorded, -⟩ := process_recorded_iff Ledger.Sample.program
      (Host.recording (.int 0) .null) Ledger.Sample.directBurnViews .empty ⟨0, []⟩
      sample_burn_route hfailed
    have hburn := hrecorded.2 ⟨.int 30000, rfl, by decide⟩
    obtain ⟨-, hcount⟩ := hburn.once Histogram.empty_complete
    exact ⟨m, hm, hburn, hcount⟩
  · obtain ⟨m, hm, -, hunrecorded⟩ := process_recorded_iff
      (Ledger.Sample.program.withBudgets fun _ => 99) Host.absent [] .empty () sample_burn_route
      hshort
    obtain ⟨rfl, -⟩ := hunrecorded fun h => absurd (Json.Value.covers_int.1 h) (by decide)
    exact hm

/-- Not everything that ends in a receipt or in a signal is recorded: the refusal of the base charge
is not. -/
theorem not_always_recorded :
    ¬ ∀ (p : Program) (host : Host Unit) (accounts : List AccountView) (data payload : Bytes)
      (operation : Operation) (m : Metrics) (status : Text),
      (∀ operation, ∃ budget : Int, p.budget operation = .int budget) →
      Operation.route data = .ok (operation, payload) →
      status? (p.process host accounts data (some m) ()).outcome = some status →
      ∃ m', (p.process host accounts data (some m) ()).metrics = some m' ∧
        m.Recorded m' (Text.of operation.name) status
          (p.process host accounts data (some m) ()).units := by
  intro h
  obtain ⟨hstatus, hunrecorded⟩ := sample_short Host.absent [] .empty ()
  obtain ⟨m, hm, hrecorded⟩ := h _ _ _ _ _ _ _ _ (fun _ => ⟨99, rfl⟩) sample_burn_route hstatus
  cases hm.symm.trans hunrecorded
  exact hrecorded.ne rfl

end Program
end Settlement
