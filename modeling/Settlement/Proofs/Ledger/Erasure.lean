import Settlement.Proofs.Ledger.Transaction

/-! Runs of transactions and injected failures. What fails with a signal is as if it had never been
tried: the same instructions succeed without it, with the same receipts and the same effects. -/

namespace Settlement.Ledger

open Outcome

inductive Action where
  | failCall (index detail : Json.Value)
  | execute (accounts : List AccountView) (data : Bytes)

namespace Action

def apply (l : Ledger) : Action → Ledger
  | failCall index detail =>
    match l.failCall index detail with
    | .ok t => t
    | .error _ => l
  | execute accounts data => (l.execute accounts data).ledger

def receipt? (l : Ledger) : Action → Option Receipt
  | failCall .. => none
  | execute accounts data => (l.execute accounts data).outcome.toOption

/-- An instruction ends in a receipt or in a signal. -/
def Settles (l : Ledger) : Action → Prop
  | failCall .. => True
  | execute accounts data =>
    ∀ e, (l.execute accounts data).outcome = .error e → ∃ s, e = .signal s

end Action

def run (l : Ledger) (actions : List Action) : Ledger := actions.foldl Action.apply l

def Orderly (l : Ledger) : List Action → Prop
  | [] => True
  | a :: rest => a.Settles l ∧ (a.apply l).Orderly rest

/-- The instructions of a run that returned a receipt, each with its receipt. -/
def committed (l : Ledger) : List Action → List (Action × Receipt)
  | [] => []
  | a :: rest =>
    match a.receipt? l with
    | some receipt => (a, receipt) :: (a.apply l).committed rest
    | none => (a.apply l).committed rest

/-! A ledger that mirrors another one has the same program and the same stores, and no failure
injected. -/

structure Mirrors (l t : Ledger) : Prop where
  program : t.program = l.program
  accounts : t.accounts = l.accounts
  compressed : t.compressed = l.compressed
  failing : t.failing = []

section Mirrors

variable {l t : Ledger} {caller : Bytes} {c : Call}

theorem Mirrors.authorize (h : Mirrors l t) (hsigners : t.signers = l.signers)
    (hauth : l.authorize caller c = .ok ()) : t.authorize caller c = .ok () := by
  have hinjected : t.injected? t.callIndex = none := by
    simp only [injected?, h.failing, List.find?_nil, Option.map_none]
  have hhandles : t.handles c = l.handles c := by
    simp only [handles, programs, h.program]
  have hsigned : t.signedKeys caller c = l.signedKeys caller c := by
    simp only [signedKeys, hsigners]
  simp only [Ledger.authorize, refuse, error_bind, guard_eq_ok, bind_eq_ok] at hauth ⊢
  obtain ⟨hhandled, signed, hkeys, hmissing, -⟩ := hauth
  refine ⟨by rw [hhandles]; exact hhandled, signed, by rw [hsigned]; exact hkeys, hmissing, ?_⟩
  rw [hinjected]

theorem Mirrors.invoke {s : Ledger} (h : Mirrors l t ∧ t.signers = l.signers)
    (hinvoke : host.invoke caller c l = (.ok (), s)) :
    ∃ u, host.invoke caller c t = (.ok (), u) ∧ Mirrors s u ∧ u.signers = s.signers := by
  obtain ⟨hmirror, hsigners⟩ := h
  cases invoked_of_host hinvoke with
  | @applied cs next hauth hc hrun =>
    have hstores : t.counted.withStores l.counted = t.counted := by
      have haccounts : l.counted.accounts = t.counted.accounts := hmirror.accounts.symm
      have hcompressed : l.counted.compressed = t.counted.compressed := hmirror.compressed.symm
      simp only [withStores, haccounts, hcompressed]
    have hmirrored := inOrder_withStores (changes_local hc) t.counted l.counted
    rw [hstores, hrun] at hmirrored
    refine ⟨(t.counted.withStores next).logged c, ?_, ⟨hmirror.program, rfl, rfl, ?_⟩, hsigners⟩
    · change t.invoke caller c = _
      rw [invoke_of_authorized (hmirror.authorize hsigners hauth) hc, inOrder_logCall, hmirrored]
    · exact hmirror.failing

theorem Mirrors.snapshot (h : Mirrors l t) {saved : Snapshot} (hsaved : l.snapshot = .ok saved) :
    ∃ saved', t.snapshot = .ok saved' := by
  simp only [Ledger.snapshot, bind_eq_ok] at hsaved
  obtain ⟨u, hlamports, v, hbalances, -⟩ := hsaved
  refine ⟨⟨t.accounts, t.compressed, t.callLog.length⟩, ?_⟩
  simp only [Ledger.snapshot, h.accounts, h.compressed, hlamports, hbalances, ok_bind]
  rfl

theorem Mirrors.execute (h : Mirrors l t) {accounts : List AccountView} {data : Bytes}
    {receipt : Receipt} (hok : (l.execute accounts data).outcome = .ok receipt) :
    (t.execute accounts data).outcome = .ok receipt ∧
      Mirrors (l.execute accounts data).ledger (t.execute accounts data).ledger := by
  obtain ⟨⟨saved, hsaved⟩, -⟩ := execute_receipt hok
  obtain ⟨saved', hsaved'⟩ := h.snapshot hsaved
  obtain ⟨houtcome, hledger⟩ := execute_of_snapshot hsaved
  obtain ⟨houtcome', hledger'⟩ := execute_of_snapshot hsaved'
  rw [houtcome] at hok
  have hopened : Mirrors (l.opened accounts) (t.opened accounts) ∧
      (t.opened accounts).signers = (l.opened accounts).signers :=
    ⟨⟨h.program, h.accounts, h.compressed, h.failing⟩, rfl⟩
  obtain ⟨hok', hmirrors, -⟩ := Program.process_follow Mirrors.invoke hopened hok
  rw [← h.program] at hok'
  refine ⟨houtcome'.trans hok', ?_⟩
  rw [hledger receipt hok, hledger' receipt hok', h.program]
  exact ⟨hmirrors.program, hmirrors.accounts, hmirrors.compressed, rfl⟩

end Mirrors

/-! One action of a run, and the whole of it. -/

section Run

variable {l t : Ledger} {a : Action}

theorem Mirrors.failCall (h : Mirrors l t) (index detail : Json.Value) :
    Mirrors ((Action.failCall index detail).apply l) t ∧
      ((Action.failCall index detail).apply l).callLog = l.callLog := by
  by_cases hkey : index.isKey
  · have happly : (Action.failCall index detail).apply l =
        { l with failing := (index, detail) :: l.failing } := by
      simp only [Action.apply, Ledger.failCall, hkey, if_true]
    rw [happly]
    exact ⟨⟨h.program, h.accounts, h.compressed, h.failing⟩, rfl⟩
  · have happly : (Action.failCall index detail).apply l = l := by
      simp only [Action.apply, Ledger.failCall, hkey, Bool.false_eq_true, if_false]
    rw [happly]
    exact ⟨h, rfl⟩

theorem Mirrors.skip (h : Mirrors l t) (hsettles : a.Settles l) (hnone : a.receipt? l = none) :
    Mirrors (a.apply l) t ∧ (a.apply l).callLog = l.callLog := by
  cases a with
  | failCall index detail => exact h.failCall index detail
  | execute accounts data =>
    have executed := execute_executed l accounts data
    cases houtcome : (l.execute accounts data).outcome with
    | ok receipt =>
      simp only [Action.receipt?, houtcome, Except.toOption, reduceCtorEq] at hnone
    | error e =>
      obtain ⟨s, rfl⟩ := hsettles e houtcome
      rw [houtcome] at executed
      simp only [Action.apply]
      generalize (l.execute accounts data).ledger = u at executed ⊢
      cases executed with
      | unsaved => exact ⟨h, rfl⟩
      | restored haccounts hcompressed hlog hprogram =>
        exact ⟨⟨h.program.trans hprogram.symm, h.accounts.trans haccounts.symm,
          h.compressed.trans hcompressed.symm, h.failing⟩, hlog⟩
      | abandoned _ hsignal => cases hsignal

theorem Mirrors.step (h : Mirrors l t) {receipt : Receipt} (hsome : a.receipt? l = some receipt) :
    a.receipt? t = some receipt ∧ Mirrors (a.apply l) (a.apply t) ∧
      (a.apply l).callLog = l.callLog ++ receipt.calls := by
  cases a with
  | failCall index detail => cases hsome
  | execute accounts data =>
    cases houtcome : (l.execute accounts data).outcome with
    | error e => simp only [Action.receipt?, houtcome, Except.toOption, reduceCtorEq] at hsome
    | ok receipt' =>
      simp only [Action.receipt?, houtcome, Except.toOption, Option.some.injEq] at hsome
      subst hsome
      obtain ⟨hmirrored, hafter⟩ := h.execute houtcome
      obtain ⟨-, -, s, m, settles, hledger⟩ := execute_receipt houtcome
      refine ⟨?_, hafter, ?_⟩
      · simp only [Action.receipt?, hmirrored, Except.toOption]
      · simp only [Action.apply, hledger]
        exact (settles_frame settles).callLog

theorem Mirrors.run {actions : List Action} (h : Mirrors l t) (horderly : l.Orderly actions) :
    Mirrors (l.run actions) (t.run ((l.committed actions).map Prod.fst)) ∧
      t.committed ((l.committed actions).map Prod.fst) = l.committed actions ∧
      (l.run actions).callLog =
        l.callLog ++ (l.committed actions).flatMap fun done => done.2.calls := by
  induction actions generalizing l t with
  | nil => exact ⟨h, rfl, (List.append_nil _).symm⟩
  | cons a rest ih =>
    obtain ⟨hsettles, hrest⟩ := horderly
    cases hreceipt : a.receipt? l with
    | none =>
      -- The run of what was committed stands still here; only the run on the left moves.
      obtain ⟨hskip, hlog⟩ := h.skip hsettles hreceipt
      have hcommitted : l.committed (a :: rest) = (a.apply l).committed rest := by
        simp only [committed, hreceipt]
      have hrun : l.run (a :: rest) = (a.apply l).run rest := rfl
      rw [hcommitted, hrun, ← hlog]
      exact ih hskip hrest
    | some receipt =>
      obtain ⟨hreceipt', hstep, hlog⟩ := h.step hreceipt
      have hcommitted : l.committed (a :: rest) =
          (a, receipt) :: (a.apply l).committed rest := by
        simp only [committed, hreceipt]
      have hrun : l.run (a :: rest) = (a.apply l).run rest := rfl
      obtain ⟨hmirrors, hsame, hcalls⟩ := ih hstep hrest
      rw [hcommitted, hrun, List.map_cons, List.flatMap_cons, ← List.append_assoc, ← hlog]
      refine ⟨hmirrors, ?_, hcalls⟩
      simp only [committed, hreceipt', hsame]

end Run

section Sample

def sampleBurn : Action := .execute Sample.directBurnViews Sample.directBurn

/-- A ledger with supply whose next transaction is to fail at its first call. -/
def sampleFailing : Ledger :=
  { Sample.ledger 1000 with failing := [(.int 0, .text (Text.of "injected failure"))] }

theorem sample_outcomes :
    (sampleFailing.execute Sample.directBurnViews Sample.directBurn).outcome =
        .error (.signal (.external Config.tokenProgramAddress
          (.text (Text.of "injected failure")))) ∧
      (sampleBurn.receipt? (sampleBurn.apply sampleFailing)).isSome = true := by
  decide +kernel

theorem sample_first : sampleBurn.receipt? sampleFailing = none := by
  simp only [sampleBurn, Action.receipt?, sample_outcomes.1, Except.toOption]

theorem sample_orderly : sampleFailing.Orderly [sampleBurn, sampleBurn] := by
  refine ⟨?_, ?_, trivial⟩
  · intro e he
    rw [sample_outcomes.1] at he
    cases he
    exact ⟨_, rfl⟩
  · intro e he
    have hsome := sample_outcomes.2
    simp only [sampleBurn, Action.receipt?] at hsome he
    rw [he] at hsome
    cases hsome

theorem sample_committed : ∃ receipt,
    sampleFailing.committed [sampleBurn, sampleBurn] = [(sampleBurn, receipt)] := by
  obtain ⟨receipt, hreceipt⟩ := Option.isSome_iff_exists.1 sample_outcomes.2
  exact ⟨receipt, by simp only [committed, sample_first, hreceipt]⟩

end Sample

/-- Failed instructions are erasable. From the same ledger with no failure injected, those that
returned a receipt give the same stores and the same receipts on their own. -/
theorem run_eq_run_committed {l : Ledger} {actions : List Action} (h : l.Orderly actions) :
    let done := l.committed actions
    let idle := { l with failing := [] }
    (l.run actions).accounts = (idle.run (done.map Prod.fst)).accounts ∧
      (l.run actions).compressed = (idle.run (done.map Prod.fst)).compressed ∧
      idle.committed (done.map Prod.fst) = done ∧
      (l.run actions).callLog = l.callLog ++ done.flatMap fun done => done.2.calls := by
  intro done idle
  have hidle : Mirrors l idle := ⟨rfl, rfl, rfl, rfl⟩
  obtain ⟨hmirrors, hsame, hcalls⟩ := hidle.run h
  exact ⟨hmirrors.accounts.symm, hmirrors.compressed.symm, hsame, hcalls⟩

theorem sample_run : ∃ receipt,
    sampleFailing.committed [sampleBurn, sampleBurn] = [(sampleBurn, receipt)] ∧
      (Sample.ledger 1000).committed [sampleBurn] = [(sampleBurn, receipt)] ∧
      (sampleFailing.run [sampleBurn, sampleBurn]).accounts =
        ((Sample.ledger 1000).run [sampleBurn]).accounts ∧
      (sampleFailing.run [sampleBurn, sampleBurn]).callLog = receipt.calls := by
  obtain ⟨receipt, hcommitted⟩ := sample_committed
  obtain ⟨haccounts, -, hsame, hcalls⟩ := run_eq_run_committed sample_orderly
  have hidle : { sampleFailing with failing := [] } = Sample.ledger 1000 := rfl
  rw [hcommitted, hidle] at hsame haccounts
  refine ⟨receipt, hcommitted, hsame, haccounts, ?_⟩
  rw [hcalls, hcommitted]
  exact List.append_nil _

/-- With a failure still to come, the instruction that succeeded is the first one and fails. -/
theorem run_with_failing_ne :
    ¬ ∀ (l : Ledger) (actions : List Action), l.Orderly actions →
      l.committed ((l.committed actions).map Prod.fst) = l.committed actions := by
  intro h
  obtain ⟨receipt, hcommitted⟩ := sample_committed
  have hsame := h sampleFailing [sampleBurn, sampleBurn] sample_orderly
  rw [hcommitted] at hsame
  have hnone : sampleFailing.committed [sampleBurn] = [] := by
    simp only [committed, sample_first]
  rw [List.map_cons, List.map_nil, hnone] at hsame
  cases hsame

end Settlement.Ledger
