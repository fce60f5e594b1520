import Settlement.Ledger.Seed
import Settlement.Proofs.Ledger.Injection
import Settlement.Proofs.Ledger.Statuses
import Settlement.Proofs.Metrics.Counting

/-! The counters of a monitor and the log of a ledger. Whatever a monitored ledger goes through, the
counters of calls show the calls that are in its log, and those of settled instructions show the
receipts. -/

namespace Settlement

open Outcome

theorem Operation.name_inj {a b : Operation} (h : Text.of a.name = Text.of b.name) : a = b := by
  revert h
  cases a <;> cases b <;> decide

namespace Metrics

/-- How many instructions of an operation have settled. -/
def settledCount (m : Metrics) (operation : Operation) : Nat :=
  m.instructionCount (Text.of operation.name) (Text.of "ok")

/-- Of calls and of settled instructions, the second shows what the first does. -/
structure Same (m m' : Metrics) : Prop where
  callCount : ∀ kind, m'.callCount kind = m.callCount kind
  amountTotal : ∀ kind, m'.amountTotal kind = m.amountTotal kind
  settledCount : ∀ operation, m'.settledCount operation = m.settledCount operation

theorem Same.refl (m : Metrics) : m.Same m := ⟨fun _ => rfl, fun _ => rfl, fun _ => rfl⟩

end Metrics

/-! What a monitor is told of an instruction. -/

namespace Program

inductive Told (m : Metrics) : Outcome Receipt → Metrics → Prop
  | settled (receipt : Receipt) :
      Told m (.ok receipt) (recordSettled receipt.operation receipt.units receipt.calls m)
  | aborted (operation : Operation) (units : Number) (signal : Signal) :
      Told m (.error (.signal signal)) (recordAborted operation units signal m)
  | untold (e : Fault) : Told m (.error e) m

variable {σ : Type}

theorem conclude_told (operation : Operation) (m : Metrics) (run : Run σ)
    (outcome : Outcome Settled) : ∃ m', (conclude operation (some m) run outcome).metrics = some m' ∧
      Told m (conclude operation (some m) run outcome).outcome m' := by
  cases outcome with
  | ok settled => exact ⟨_, rfl, .settled _⟩
  | error e =>
    cases e with
    | signal s => exact ⟨_, rfl, .aborted _ _ s⟩
    | _ => exact ⟨_, rfl, .untold _⟩

theorem process_told (p : Program) (host : Host σ) (accounts : List AccountView) (data : Bytes)
    (m : Metrics) (s : σ) : ∃ m', (p.process host accounts data (some m) s).metrics = some m' ∧
      Told m (p.process host accounts data (some m) s).outcome m' := by
  simp only [process]
  split
  · exact ⟨m, rfl, .untold _⟩
  · split
    · exact ⟨m, rfl, .untold _⟩
    · exact conclude_told _ _ _ _

theorem recordAborted_same (operation : Operation) (units : Number) {s : Signal} (hs : s.Classed)
    (m : Metrics) : m.Same (recordAborted operation units s m) := by
  refine ⟨Metrics.callCount_recordInstruction _ _ _ _ m,
    Metrics.amountTotal_recordInstruction _ _ _ _ m, fun other => ?_⟩
  refine Metrics.instructionCount_recordInstruction_of_ne _ _ _ _ _ fun h => ?_
  exact hs.status_ne_ok (Prod.mk.inj h).2.symm

theorem settledCount_recordSettled (operation other : Operation) (units : Number)
    (calls : List Call) (m : Metrics) :
    (recordSettled operation units calls m).settledCount other =
      m.settledCount other + if operation = other then 1 else 0 := by
  have hinstructions : (recordSettled operation units calls m).settledCount other =
      (m.recordInstruction (Text.of operation.name) (Text.of "ok") (.ofNumber units)
        (.int 0)).2.settledCount other := by
    simp only [recordSettled, Metrics.settledCount, Metrics.instructionCount,
      (Metrics.recordCalls_frame _ _).1]
  rw [hinstructions]
  by_cases h : operation = other
  · subst h
    rw [if_pos rfl]
    exact Metrics.instructionCount_recordInstruction_self _ _ _ _ _
  · rw [if_neg h]
    refine Metrics.instructionCount_recordInstruction_of_ne _ _ _ _ _ fun hname => h ?_
    exact (Operation.name_inj (Prod.mk.inj hname).1).symm

end Program

namespace Metrics

theorem Tallies.recordSettled {m : Metrics} {logged calls : List Call} (h : m.Tallies logged)
    (operation : Operation) (units : Number) (hcalls : ∀ c ∈ calls, c.Measured) :
    (Program.recordSettled operation units calls m).Tallies (logged ++ calls) := by
  refine Tallies.recordCalls ?_ hcalls
  exact h.of_readings (callCount_recordInstruction _ _ _ _ m)
    (amountTotal_recordInstruction _ _ _ _ m)

end Metrics

namespace Ledger

/-! Filling a ledger tells its monitor nothing. -/

/-- Seeding, whether it ends well or not. -/
inductive Seeded (l : Ledger) : Ledger → Prop
  | genesis (treasury transferAuthority secondaryAuthority mint : Bytes) (initialized paused : Bool)
      (supply : Json.Value) :
      Seeded l (l.genesis treasury transferAuthority secondaryAuthority mint initialized paused
        supply).ledger
  | record {key owner : Bytes} {record : Record} {t : Ledger} :
      l.writeRecord key record owner = .ok t → Seeded l t
  | tokenAccount (key mint owner : Bytes) (amount : Json.Value) :
      Seeded l (createTokenAccount key mint owner amount l).2
  | balance (owner : Bytes) (amount : Json.Value) : Seeded l (l.setCompressed owner amount)

/-- The same log and the same metrics. -/
structure Unheard (l t : Ledger) : Prop where
  callLog : t.callLog = l.callLog
  metrics : t.metrics = l.metrics

section Seeded

variable {l t : Ledger}

theorem writeRecord_unheard {key owner : Bytes} {record : Record}
    (h : l.writeRecord key record owner = .ok t) : Unheard l t := by
  obtain ⟨data, -, ht⟩ := bind_eq_ok.1 h
  cases ht
  exact ⟨rfl, rfl⟩

theorem genesis_unheard (treasury transferAuthority secondaryAuthority mint : Bytes)
    (initialized paused : Bool) (supply : Json.Value) :
    Unheard l (l.genesis treasury transferAuthority secondaryAuthority mint initialized paused
      supply).ledger := by
  simp only [genesis]
  split
  · exact ⟨rfl, rfl⟩
  · split
    · exact ⟨rfl, rfl⟩
    · split
      · exact ⟨rfl, rfl⟩
      · next hwrite =>
        have hkept := writeRecord_unheard hwrite
        exact ⟨hkept.callLog, hkept.metrics⟩

theorem createTokenAccount_unheard (key mint owner : Bytes) (amount : Json.Value) :
    Unheard l (createTokenAccount key mint owner amount l).2 := by
  rw [createTokenAccount, inOrder]
  cases hstore : storeTokenAccount key mint owner amount l with
  | error e => exact ⟨rfl, rfl⟩
  | ok s =>
    have hs : Unheard l s := by
      obtain ⟨n, -, h⟩ := bind_eq_ok.1 hstore
      obtain ⟨data, -, h⟩ := bind_eq_ok.1 h
      cases h
      exact ⟨rfl, rfl⟩
    simp only [inOrder]
    cases hadjust : s.adjustSupply mint amount with
    | error e => exact hs
    | ok t =>
      rcases adjustSupply_ok hadjust with rfl | ⟨a, data, -, rfl⟩
      · exact hs
      · exact ⟨hs.callLog, hs.metrics⟩

theorem Seeded.unheard (h : Seeded l t) : Unheard l t := by
  cases h with
  | genesis => exact genesis_unheard _ _ _ _ _ _ _
  | record hwrite => exact writeRecord_unheard hwrite
  | tokenAccount => exact createTokenAccount_unheard _ _ _ _
  | balance => exact ⟨rfl, rfl⟩

theorem failCall_unheard {index detail : Json.Value} (h : l.failCall index detail = .ok t) :
    Unheard l t := by
  rw [failCall] at h
  split at h
  · cases h
    exact ⟨rfl, rfl⟩
  · cases h

end Seeded

/-! Instructions on a monitored ledger. -/

section Executed

variable {l : Ledger} {m : Metrics} {accounts : List AccountView} {data : Bytes}

theorem execute_metrics {saved : Snapshot} (hsaved : l.snapshot = .ok saved) :
    (l.execute accounts data).ledger.metrics =
      (l.program.process host accounts data l.metrics (l.opened accounts)).metrics := by
  have hprocess : (l.startTransaction (signerKeys accounts)).process accounts data =
      let p := l.program.process host accounts data l.metrics (l.opened accounts)
      ⟨p.outcome, { p.host with metrics := p.metrics }, p.log⟩ := rfl
  simp only [execute, hsaved, hprocess]
  cases (l.program.process host accounts data l.metrics (l.opened accounts)).outcome with
  | ok receipt => rfl
  | error e => cases e <;> rfl

/-- A ledger without a snapshot tells its monitor nothing. -/
theorem execute_told (accounts : List AccountView) (data : Bytes) (hm : l.metrics = some m) :
    ∃ m', (l.execute accounts data).ledger.metrics = some m' ∧
      Program.Told m (l.execute accounts data).outcome m' := by
  cases hsaved : l.snapshot with
  | error e =>
    simp only [execute, hsaved]
    exact ⟨m, hm, .untold e⟩
  | ok saved =>
    rw [execute_metrics hsaved, (execute_of_snapshot hsaved).1, hm]
    exact l.program.process_told host accounts data m (l.opened accounts)

theorem execute_settled {receipt : Receipt} (hm : l.metrics = some m)
    (h : (l.execute accounts data).outcome = .ok receipt) :
    (l.execute accounts data).ledger.metrics =
      some (Program.recordSettled receipt.operation receipt.units receipt.calls m) := by
  obtain ⟨m', hmetrics, told⟩ := execute_told accounts data hm
  rw [h] at told
  cases told
  exact hmetrics

theorem execute_aborted {s : Signal} (hm : l.metrics = some m)
    (h : (l.execute accounts data).outcome = .error (.signal s)) :
    ∃ m', (l.execute accounts data).ledger.metrics = some m' ∧ m.Same m' := by
  cases hsaved : l.snapshot with
  | error e =>
    simp only [execute, hsaved]
    exact ⟨m, hm, .refl m⟩
  | ok saved =>
    have houtcome : (l.execute accounts data).outcome = _ := (execute_of_snapshot hsaved).1
    have hs : s.Classed := l.program.process_classed accounts data l.metrics (l.opened accounts) s
      (houtcome.symm.trans h)
    obtain ⟨m', hmetrics, told⟩ := execute_told accounts data hm
    rw [h] at told
    refine ⟨m', hmetrics, ?_⟩
    cases told with
    | untold => exact .refl m
    | aborted operation units => exact Program.recordAborted_same operation units hs m

end Executed

/-- The ledgers that a monitored one becomes, step by step, with the receipts so far. -/
inductive Monitored (c : Config) : List Receipt → Ledger → Prop
  | created {l : Ledger} : ofConfig c true = .ok l → Monitored c [] l
  | seeded {receipts : List Receipt} {l t : Ledger} :
      Monitored c receipts l → Seeded l t → Monitored c receipts t
  | failing {receipts : List Receipt} {l t : Ledger} {index detail : Json.Value} :
      Monitored c receipts l → l.failCall index detail = .ok t → Monitored c receipts t
  | committed {receipts : List Receipt} {l : Ledger} {accounts : List AccountView} {data : Bytes}
      {receipt : Receipt} :
      Monitored c receipts l → (l.execute accounts data).outcome = .ok receipt →
      Monitored c (receipts ++ [receipt]) (l.execute accounts data).ledger
  | aborted {receipts : List Receipt} {l : Ledger} {accounts : List AccountView} {data : Bytes}
      {signal : Signal} :
      Monitored c receipts l → (l.execute accounts data).outcome = .error (.signal signal) →
      Monitored c receipts (l.execute accounts data).ledger

structure Tallied (receipts : List Receipt) (l : Ledger) (m : Metrics) : Prop where
  metrics : l.metrics = some m
  calls : m.Tallies l.callLog
  settled : ∀ operation,
    m.settledCount operation = (receipts.filter fun r => r.operation = operation).length

theorem Tallied.of_unheard {receipts : List Receipt} {l t : Ledger} {m : Metrics}
    (h : Tallied receipts l m) (hsame : Unheard l t) : Tallied receipts t m where
  metrics := hsame.metrics.trans h.metrics
  calls := by
    rw [hsame.callLog]
    exact h.calls
  settled := h.settled

theorem Tallied.committed {receipts : List Receipt} {l : Ledger} {m : Metrics}
    {accounts : List AccountView} {data : Bytes} {receipt : Receipt} (h : Tallied receipts l m)
    (hreceipt : (l.execute accounts data).outcome = .ok receipt) :
    Tallied (receipts ++ [receipt]) (l.execute accounts data).ledger
      (Program.recordSettled receipt.operation receipt.units receipt.calls m) where
  metrics := execute_settled h.metrics hreceipt
  calls := by
    obtain ⟨-, validated, -⟩ := execute_receipt hreceipt
    rw [execute_callLog hreceipt]
    refine h.calls.recordSettled _ _ fun c hc => ?_
    obtain ⟨n, hprepared, hpos, hlt⟩ := validated.prepared c hc
    exact ⟨n, hprepared.amount_eq, hpos, hlt⟩
  settled operation := by
    rw [Program.settledCount_recordSettled, h.settled operation, List.filter_append,
      List.length_append]
    by_cases hsame : receipt.operation = operation
    · simp [hsame]
    · simp [hsame]

theorem Tallied.aborted {receipts : List Receipt} {l : Ledger} {m : Metrics}
    {accounts : List AccountView} {data : Bytes} {s : Signal} (h : Tallied receipts l m)
    (hsignal : (l.execute accounts data).outcome = .error (.signal s)) :
    ∃ m', Tallied receipts (l.execute accounts data).ledger m' := by
  obtain ⟨m', hmetrics, hsame⟩ := execute_aborted h.metrics hsignal
  refine ⟨m', hmetrics, ?_, fun operation => ?_⟩
  · rw [(execute_signal hsignal).callLog]
    exact h.calls.of_readings hsame.callCount hsame.amountTotal
  · rw [hsame.settledCount operation]
    exact h.settled operation

theorem Monitored.tallied {c : Config} {receipts : List Receipt} {l : Ledger}
    (h : Monitored c receipts l) : ∃ m, Tallied receipts l m := by
  induction h with
  | created hconfig =>
    obtain ⟨programs, -, h⟩ := bind_eq_ok.1 hconfig
    obtain ⟨program, -, h⟩ := bind_eq_ok.1 h
    cases h
    exact ⟨.empty, rfl, Metrics.empty_tallies, fun _ => rfl⟩
  | seeded _ hseeded ih =>
    obtain ⟨m, hm⟩ := ih
    exact ⟨m, hm.of_unheard hseeded.unheard⟩
  | failing _ hfail ih =>
    obtain ⟨m, hm⟩ := ih
    exact ⟨m, hm.of_unheard (failCall_unheard hfail)⟩
  | committed _ hreceipt ih =>
    obtain ⟨m, hm⟩ := ih
    exact ⟨_, hm.committed hreceipt⟩
  | aborted _ hsignal ih =>
    obtain ⟨m, hm⟩ := ih
    exact hm.aborted hsignal

/-- The counters reconcile with the log: of every kind they show as many calls as are in it and, up
to `2 ^ 53`, the sum of their amounts; and of every operation as many settled instructions as there
are receipts. What is rolled back leaves no trace in them. -/
theorem Monitored.reconciles {c : Config} {receipts : List Receipt} {l : Ledger}
    (h : Monitored c receipts l) : ∃ m, l.metrics = some m ∧
      (∀ call ∈ l.callLog, call.Measured) ∧
      (∀ kind, m.callCount kind = (l.callLog.filter fun call => call.kind.name = kind).length ∧
        ((amountsOf kind l.callLog).sum ≤ 2 ^ 53 → (Number.float (m.amountTotal kind)).compare?
          (.int (amountsOf kind l.callLog).sum) = some .eq)) ∧
      (∀ operation, m.settledCount operation =
        (receipts.filter fun receipt => receipt.operation = operation).length) ∧
      ∀ accounts data s, (l.execute accounts data).outcome = .error (.signal s) →
        ∃ m', (l.execute accounts data).ledger.metrics = some m' ∧ m.Same m' := by
  obtain ⟨m, hm⟩ := h.tallied
  refine ⟨m, hm.metrics, hm.calls.measured, fun kind => ⟨?_, fun hle => ?_⟩, hm.settled,
    fun accounts data s => execute_aborted hm.metrics⟩
  · rw [hm.calls.counts kind, amountsOf, List.length_map]
  · have hwhole := hm.calls.totals kind hle
    have hcompare := hwhole.compare?_eq
    rw [Int.toNat_of_nonneg (amountsOf_nonneg hm.calls.measured kind)] at hcompare
    exact hcompare

/-! A payment of 120 whose second leg fails, and the same payment again, which settles. -/

namespace Sample

def watched : Ledger :=
  (((ofConfig .standard true).toOption.getD (ledger 0)).setCompressed userKey (.int 240))

def doubtful : Ledger :=
  (watched.failCall (.int 1) (.text (Text.of "injected failure"))).toOption.getD watched

def retried : Ledger := (doubtful.execute splitTransferViews splitTransfer).ledger

/-- With no failure injected the payment is made, in two legs. -/
theorem watched_receipt : ∃ receipt,
    (watched.execute splitTransferViews splitTransfer).outcome = .ok receipt ∧
      receipt.operation = .splitTransfer ∧
      amountsOf CallKind.compressedTransfer.name receipt.calls = [100, 20] ∧
      ∃ c, receipt.calls[1]? = some c ∧ c.program = Config.compressedTokenProgramAddress := by
  have hruns : (watched.execute splitTransferViews splitTransfer).outcome.map (fun receipt =>
      (receipt.operation, amountsOf CallKind.compressedTransfer.name receipt.calls,
        receipt.calls[1]?.map Call.program)) =
      .ok (.splitTransfer, [100, 20], some Config.compressedTokenProgramAddress) := by
    decide +kernel
  cases houtcome : (watched.execute splitTransferViews splitTransfer).outcome with
  | error e =>
    rw [houtcome] at hruns
    cases hruns
  | ok receipt =>
    rw [houtcome] at hruns
    obtain ⟨hoperation, hcalls⟩ := Prod.mk.inj (Except.ok.inj hruns)
    obtain ⟨hamounts, hprogram⟩ := Prod.mk.inj hcalls
    exact ⟨receipt, rfl, hoperation, hamounts, Option.map_eq_some_iff.1 hprogram⟩

theorem doubtful_armed :
    doubtful = watched.arm [(.int 1, .text (Text.of "injected failure"))] := rfl

theorem doubtful_failed : (doubtful.execute splitTransferViews splitTransfer).outcome =
    .error (.signal (.external Config.compressedTokenProgramAddress
      (.text (Text.of "injected failure")))) := by
  obtain ⟨receipt, h, -, -, c, hc, hprogram⟩ := watched_receipt
  rw [doubtful_armed, ← hprogram]
  refine execute_stopped (l := watched) h hc rfl fun j hj => ?_
  obtain rfl : j = 0 := by omega
  rfl

/-- The failed payment leaves no trace that the next one could see. -/
theorem retried_visible : watched.visible = retried.visible := by
  obtain ⟨receipt, h, -⟩ := watched_receipt
  obtain ⟨hprogram, haccounts, hcompressed, hlog⟩ := execute_signal doubtful_failed
  rw [retried]
  refine visible_eq_iff.2 ⟨⟨hprogram, haccounts, hcompressed, hlog⟩, ?_⟩
  rw [doubtful_armed]
  exact execute_disarms (l := watched) h

theorem retried_monitored : Monitored .standard [] retried ∧ retried.callLog = [] := by
  have hwatched : Monitored .standard [] watched := by
    have hcreated : ofConfig .standard true =
        .ok ((ofConfig .standard true).toOption.getD (ledger 0)) := rfl
    exact .seeded (.created hcreated) (.balance userKey (.int 240))
  have hfailing : watched.failCall (.int 1) (.text (Text.of "injected failure")) = .ok doubtful :=
    rfl
  have hdoubtful : Monitored .standard [] doubtful := .failing hwatched hfailing
  have hempty : doubtful.callLog = [] := rfl
  rw [retried, (execute_signal doubtful_failed).callLog]
  exact ⟨.aborted hdoubtful doubtful_failed, hempty⟩

end Sample

theorem retried_reconciles : ∃ receipt : Receipt,
    let t := (Sample.retried.execute Sample.splitTransferViews Sample.splitTransfer).ledger
    Monitored .standard [receipt] t ∧ ∃ m, t.metrics = some m ∧
      m.callCount CallKind.compressedTransfer.name = 2 ∧
      (Number.float (m.amountTotal CallKind.compressedTransfer.name)).compare? 120 = some .eq ∧
      m.settledCount .splitTransfer = 1 := by
  obtain ⟨receipt, hpaid, hoperation, hamounts, -⟩ := Sample.watched_receipt
  have hreceipt := (execute_of_visible Sample.retried_visible Sample.splitTransferViews
    Sample.splitTransfer).1.trans hpaid
  obtain ⟨hretried, hempty⟩ := Sample.retried_monitored
  have hmonitored := Monitored.committed hretried hreceipt
  have hlog := execute_callLog hreceipt
  rw [hempty, List.nil_append] at hlog
  refine ⟨receipt, hmonitored, ?_⟩
  obtain ⟨m, hm, -, hcalls, hsettled, -⟩ := hmonitored.reconciles
  obtain ⟨hcount, htotal⟩ := hcalls CallKind.compressedTransfer.name
  rw [hlog] at hcount htotal
  rw [hamounts] at htotal
  refine ⟨m, hm, ?_, htotal (by decide), ?_⟩
  · rw [hcount, ← List.length_map (fun c : Call => c.amount.count)]
    exact congrArg List.length hamounts
  · rw [hsettled, List.nil_append]
    simp only [List.filter_cons, hoperation]
    rfl

end Ledger
end Settlement
