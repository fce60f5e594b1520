import Settlement.Ledger.Execute
import Settlement.Proofs.Ledger.Changes
import Settlement.Proofs.Program.Course

/-! How the ledger answers a call, and what a transaction leaves behind. A call that fails is not
logged. A transaction that ends in a signal leaves what was stored before it. -/

namespace Settlement.Ledger

open Outcome

/-! Calls. -/

def counted (l : Ledger) : Ledger := { l with callIndex := l.callIndex + 1 }

def logged (l : Ledger) (c : Call) : Ledger := { l with callLog := l.callLog ++ [c] }

theorem authorize_error {caller : Bytes} {c : Call} {l : Ledger} {e : Fault}
    (h : l.authorize caller c = .error e) : ∃ s, e = .signal s := by
  simp only [authorize, refuse, error_bind, guard_eq_error, bind_eq_error] at h
  rcases h with ⟨_, h⟩ | ⟨_, h | ⟨signed, _, ⟨_, h⟩ | ⟨_, h⟩⟩⟩
  · exact ⟨_, h.symm⟩
  · simp only [signedKeys] at h
    split at h
    · cases h
    · cases h
      exact ⟨_, rfl⟩
  · exact ⟨_, h.symm⟩
  · split at h
    · cases h
      exact ⟨_, rfl⟩
    · cases h

theorem inOrder_withStores {cs : List (Ledger → Outcome Ledger)} (hcs : ∀ change ∈ cs, Local change)
    (t l : Ledger) :
    inOrder cs (t.withStores l) = ((inOrder cs l).1, t.withStores (inOrder cs l).2) := by
  induction cs generalizing l with
  | nil => rfl
  | cons change rest ih =>
    have hrest : ∀ change ∈ rest, Local change := fun c hc => hcs c (List.mem_cons_of_mem _ hc)
    have hfirst := hcs change List.mem_cons_self t l
    simp only [inOrder, hfirst]
    cases change l with
    | ok next => exact ih hrest next
    | error e => rfl

theorem inOrder_frame {cs : List (Ledger → Outcome Ledger)} (hcs : ∀ change ∈ cs, Local change)
    (l : Ledger) : (inOrder cs l).2 = l.withStores (inOrder cs l).2 :=
  congrArg Prod.snd (inOrder_withStores hcs l l)

theorem inOrder_logCall (cs : List (Ledger → Outcome Ledger)) (c : Call) (l : Ledger) :
    inOrder (cs ++ [logCall c]) l =
      match inOrder cs l with
      | (.ok (), t) => (.ok (), t.logged c)
      | (.error e, t) => (.error e, t) := by
  induction cs generalizing l with
  | nil => rfl
  | cons change rest ih =>
    simp only [List.cons_append, inOrder]
    cases change l with
    | ok next => exact ih next
    | error e => rfl

theorem invoke_of_authorized {caller : Bytes} {c : Call} {l : Ledger}
    {cs : List (Ledger → Outcome Ledger)} (hauth : l.authorize caller c = .ok ())
    (hchanges : changes c = .ok cs) :
    l.invoke caller c = inOrder (cs ++ [logCall c]) l.counted := by
  simp only [invoke, hauth, hchanges]
  rfl

inductive Invoked (caller : Bytes) (c : Call) (l : Ledger) : Change → Prop
  | refused {s : Signal} :
      l.authorize caller c = .error (.signal s) → Invoked caller c l (.error (.signal s), l.counted)
  | malformed {e : Fault} :
      changes c = .error e → Invoked caller c l (.error e, l.counted)
  | failed {cs : List (Ledger → Outcome Ledger)} {e : Fault} {t : Ledger} :
      changes c = .ok cs → inOrder cs l.counted = (.error e, t) →
      Invoked caller c l (.error e, l.counted.withStores t)
  | applied {cs : List (Ledger → Outcome Ledger)} {t : Ledger} :
      l.authorize caller c = .ok () → changes c = .ok cs → inOrder cs l.counted = (.ok (), t) →
      Invoked caller c l (.ok (), (l.counted.withStores t).logged c)

theorem invoke_invoked (caller : Bytes) (c : Call) (l : Ledger) :
    Invoked caller c l (l.invoke caller c) := by
  cases hauth : l.authorize caller c with
  | error e =>
    obtain ⟨s, rfl⟩ := authorize_error hauth
    simp only [invoke, hauth]
    exact .refused hauth
  | ok u =>
    cases hchanges : changes c with
    | error e =>
      simp only [invoke, hauth, hchanges]
      exact .malformed hchanges
    | ok cs =>
      have hframe := inOrder_frame (changes_local hchanges) l.counted
      rw [invoke_of_authorized hauth hchanges, inOrder_logCall]
      rcases hrun : inOrder cs l.counted with ⟨outcome, t⟩
      rw [hrun] at hframe
      cases outcome with
      | error e =>
        have hfailed : Invoked caller c l (.error e, l.counted.withStores t) :=
          .failed hchanges hrun
        simpa only [← hframe] using hfailed
      | ok u =>
        have happlied := Invoked.applied hauth hchanges hrun
        simpa only [← hframe] using happlied

theorem invoked_of_host {caller : Bytes} {c : Call} {l : Ledger} {answer : Change}
    (h : host.invoke caller c l = answer) : Invoked caller c l answer := by
  rw [← h]
  exact invoke_invoked caller c l

/-- What calls leave alone: everything but the stores, the log and the number of calls. -/
structure Frame (l t : Ledger) (calls : List Call) : Prop where
  program : t.program = l.program
  callLog : t.callLog = l.callLog ++ calls
  signers : t.signers = l.signers
  failing : t.failing = l.failing
  metrics : t.metrics = l.metrics

theorem Frame.refl (l : Ledger) : Frame l l [] := ⟨rfl, (List.append_nil _).symm, rfl, rfl, rfl⟩

theorem Frame.trans {l s t : Ledger} {cs ds : List Call} (h : Frame l s cs) (h' : Frame s t ds) :
    Frame l t (cs ++ ds) where
  program := h'.program.trans h.program
  callLog := by rw [h'.callLog, h.callLog, List.append_assoc]
  signers := h'.signers.trans h.signers
  failing := h'.failing.trans h.failing
  metrics := h'.metrics.trans h.metrics

theorem Invoked.frame_of_ok {caller : Bytes} {c : Call} {l t : Ledger}
    (h : Invoked caller c l (.ok (), t)) : Frame l t [c] := by
  cases h with
  | applied => exact ⟨rfl, rfl, rfl, rfl, rfl⟩

theorem Invoked.frame_of_error {caller : Bytes} {c : Call} {l t : Ledger} {e : Fault}
    (h : Invoked caller c l (.error e, t)) : Frame l t [] := by
  have hnil : l.callLog = l.callLog ++ [] := (List.append_nil _).symm
  cases h with
  | refused => exact ⟨rfl, hnil, rfl, rfl, rfl⟩
  | malformed => exact ⟨rfl, hnil, rfl, rfl, rfl⟩
  | failed => exact ⟨rfl, hnil, rfl, rfl, rfl⟩

theorem settles_frame {caller : Bytes} {cs : List Call} {l t : Ledger}
    (h : host.Settles caller cs l t) : Frame l t cs := by
  induction h with
  | nil => exact .refl _
  | cons first rest ih => exact (invoked_of_host first).frame_of_ok.trans ih

theorem course_frame {p : Program} {accounts : List AccountView} {data : Bytes} {l t : Ledger}
    {outcome : Outcome Receipt} {handed : List Call}
    (h : Program.Course p host accounts data l outcome handed t) : ∃ done, Frame l t done := by
  cases h with
  | rejected => exact ⟨[], .refl _⟩
  | exhausted r split settles => exact ⟨_, settles_frame settles⟩
  | stopped split settles fails =>
    exact ⟨_, (settles_frame settles).trans (invoked_of_host fails).frame_of_error⟩
  | settled _ _ settles => exact ⟨_, settles_frame settles⟩

/-! Transactions. -/

theorem snapshot_ok {l : Ledger} {saved : Snapshot} (h : l.snapshot = .ok saved) :
    saved = ⟨l.accounts, l.compressed, l.callLog.length⟩ := by
  simp only [snapshot, bind_eq_ok] at h
  obtain ⟨_, _, _, _, hsaved⟩ := h
  exact (Except.ok.inj hsaved).symm

def opened (l : Ledger) (accounts : List AccountView) : Ledger :=
  l.startTransaction (signerKeys accounts)

inductive Executed (l : Ledger) (accounts : List AccountView) (data : Bytes) :
    Outcome Receipt → Ledger → Prop
  | unsaved {e : Fault} : l.snapshot = .error e → Executed l accounts data (.error e) l
  | committed {saved : Snapshot} {receipt : Receipt} {t : Ledger} {m : Option Metrics} :
      l.snapshot = .ok saved → Validated l.program.rules accounts data receipt.calls →
      host.Settles l.program.address receipt.calls (l.opened accounts) t →
      Executed l accounts data (.ok receipt) ({ t with metrics := m }.endTransaction)
  | restored {s : Signal} {t : Ledger} {m : Option Metrics} :
      t.accounts = l.accounts → t.compressed = l.compressed → t.callLog = l.callLog →
      t.program = l.program →
      Executed l accounts data (.error (.signal s)) ({ t with metrics := m }.endTransaction)
  | abandoned {saved : Snapshot} {e : Fault} {handed : List Call} {t : Ledger}
      {m : Option Metrics} :
      l.snapshot = .ok saved → e.signal? = none →
      Program.Course l.program host accounts data (l.opened accounts) (.error e) handed t →
      Executed l accounts data (.error e) ({ t with metrics := m }.endTransaction)

theorem execute_executed (l : Ledger) (accounts : List AccountView) (data : Bytes) :
    Executed l accounts data (l.execute accounts data).outcome
      (l.execute accounts data).ledger := by
  cases hsaved : l.snapshot with
  | error e =>
    simp only [execute, hsaved]
    exact .unsaved hsaved
  | ok saved =>
    have course := Program.process_course l.program host accounts data l.metrics (l.opened accounts)
    rcases hrun : l.program.process host accounts data l.metrics (l.opened accounts) with
      ⟨outcome, handed, units, t, m, log⟩
    have hprocess : (l.startTransaction (signerKeys accounts)).process accounts data =
        ⟨outcome, { t with metrics := m }, log⟩ := by
      have hopen := congrArg (fun p : Processed Ledger =>
        Answer.mk p.outcome { p.host with metrics := p.metrics } p.log) hrun
      exact hopen
    rw [hrun] at course
    obtain ⟨done, frame⟩ := course_frame course
    cases outcome with
    | ok receipt =>
      simp only [execute, hsaved, hprocess]
      cases course with
      | settled _ validated settles => exact .committed hsaved validated settles
    | error e =>
      cases hsignal : e.signal? with
      | none =>
        simp only [execute, hsaved, hprocess, hsignal]
        exact .abandoned hsaved hsignal course
      | some signal =>
        have he : e = .signal signal := by
          cases e with
          | signal s => rw [Option.some.inj hsignal]
          | _ => cases hsignal
        have hlog : t.callLog.take l.callLog.length = l.callLog := by
          rw [frame.callLog]
          exact List.take_left
        let back : Ledger := { t with
          accounts := l.accounts
          compressed := l.compressed
          callLog := l.callLog }
        have hprogram : back.program = l.program := frame.program
        simp only [execute, hsaved, hprocess, snapshot_ok hsaved, restore, hlog, he]
        exact @Executed.restored l accounts data signal back m rfl rfl rfl hprogram

theorem execute_receipt {l : Ledger} {accounts : List AccountView} {data : Bytes}
    {receipt : Receipt} (h : (l.execute accounts data).outcome = .ok receipt) :
    (∃ saved, l.snapshot = .ok saved) ∧ Validated l.program.rules accounts data receipt.calls ∧
      ∃ t m, host.Settles l.program.address receipt.calls (l.opened accounts) t ∧
        (l.execute accounts data).ledger = { t with metrics := m }.endTransaction := by
  have executed := execute_executed l accounts data
  rw [h] at executed
  generalize (l.execute accounts data).ledger = u at executed ⊢
  cases executed with
  | @committed saved _ t m hsaved validated settles =>
    exact ⟨⟨saved, hsaved⟩, validated, t, m, settles, rfl⟩

theorem execute_callLog {l : Ledger} {accounts : List AccountView} {data : Bytes}
    {receipt : Receipt} (h : (l.execute accounts data).outcome = .ok receipt) :
    (l.execute accounts data).ledger.callLog = l.callLog ++ receipt.calls := by
  obtain ⟨-, -, t, m, settles, hledger⟩ := execute_receipt h
  rw [hledger]
  exact (settles_frame settles).callLog

/-- What a signal leaves: the ledger as it was, but for what belongs to the transaction. -/
structure Restored (l t : Ledger) : Prop where
  program : t.program = l.program
  accounts : t.accounts = l.accounts
  compressed : t.compressed = l.compressed
  callLog : t.callLog = l.callLog

theorem Restored.trans {l s t : Ledger} (h : Restored l s) (h' : Restored s t) : Restored l t :=
  ⟨h'.program.trans h.program, h'.accounts.trans h.accounts, h'.compressed.trans h.compressed,
    h'.callLog.trans h.callLog⟩

theorem execute_signal {l : Ledger} {accounts : List AccountView} {data : Bytes} {s : Signal}
    (h : (l.execute accounts data).outcome = .error (.signal s)) :
    Restored l (l.execute accounts data).ledger := by
  have executed := execute_executed l accounts data
  rw [h] at executed
  generalize (l.execute accounts data).ledger = u at executed ⊢
  cases executed with
  | unsaved => exact ⟨rfl, rfl, rfl, rfl⟩
  | restored haccounts hcompressed hlog hprogram => exact ⟨hprogram, haccounts, hcompressed, hlog⟩
  | abandoned _ hsignal => cases hsignal

theorem execute_of_snapshot {l : Ledger} {accounts : List AccountView} {data : Bytes}
    {saved : Snapshot} (hsaved : l.snapshot = .ok saved) :
    let p := l.program.process host accounts data l.metrics (l.opened accounts)
    (l.execute accounts data).outcome = p.outcome ∧ ∀ receipt, p.outcome = .ok receipt →
      (l.execute accounts data).ledger = { p.host with metrics := p.metrics }.endTransaction := by
  intro p
  have hprocess : (l.startTransaction (signerKeys accounts)).process accounts data =
      ⟨p.outcome, { p.host with metrics := p.metrics }, p.log⟩ := rfl
  simp only [execute, hsaved, hprocess]
  cases p.outcome with
  | ok receipt => exact ⟨rfl, fun _ _ => rfl⟩
  | error e =>
    refine ⟨?_, fun _ h => by cases h⟩
    cases he : e.signal? <;> simp only [he]

/-! A small ledger for runs on given instructions: the record, a mint with a supply, an organization
with a balance, and a token account. -/

namespace Sample

def key (n : UInt8) : Bytes := List.replicate 32 n

/-- The address of the record, for bump 255. -/
def recordKey : Bytes :=
  [207, 218, 102, 56, 168, 120, 138, 52, 173, 46, 158, 34, 11, 85, 215, 74, 10, 156, 195, 136, 255,
   192, 169, 10, 63, 68, 173, 68, 173, 174, 79, 129]

/-- The address of the organization with the number 1, for bump 255. -/
def organizationKey : Bytes :=
  [14, 234, 150, 178, 246, 80, 94, 174, 34, 100, 237, 34, 2, 62, 198, 103, 42, 252, 1, 140, 178,
   165, 14, 59, 255, 63, 181, 218, 46, 13, 17, 80]

def program : Program where
  rules := {
    programs := {
      settlement := Config.programAddress
      token := Config.tokenProgramAddress
      compressedToken := Config.compressedTokenProgramAddress
      system := systemAddress }
    policy := [(Text.of "mixed_payment", ⟨100, 120⟩)]
    gatesDirectBurn := false }
  budget := fun _ => .int 30000

def record : Record := { Record.blank with
  treasury := key 1
  transferAuthority := key 2
  mint := key 4
  initialized := true
  selfBump := 255 }

def held (owner : Bytes) (data : Outcome Bytes) : Account :=
  { Account.empty with owner := owner, data := data.toOption.getD [] }

def ledger (supply : Int) : Ledger :=
  let bare : Ledger := ⟨program, .empty, .empty, [], [], 0, [], none⟩
  (((bare.setAccount recordKey (held Config.programAddress record.encode)).setAccount (key 4)
    (held Config.tokenProgramAddress (Mint.pack supply 6))).setAccount (key 6)
    (held Config.tokenProgramAddress (TokenAccount.pack (key 4) (key 7) 100))).setCompressed
    organizationKey (.int 100)

def organizationBurnViews : List AccountView :=
  let l := ledger 0
  [l.view (key 2) true false, l.view recordKey false false, l.view (key 4) false true,
    l.view organizationKey false false, l.view (key 5) true true, l.view systemAddress false false,
    l.view Config.compressedTokenProgramAddress false false]

def directBurnViews : List AccountView :=
  let l := ledger 0
  [l.view (key 1) true false, l.view recordKey false false, l.view (key 4) false true,
    l.view (key 6) false true, l.view (key 7) true false,
    l.view Config.tokenProgramAddress false false]

def instruction (p : Payload) : Bytes := p.instruction.toOption.getD []

def organizationBurn : Bytes := instruction (.organizationBurn ⟨1, 40, "zupy:v1:a:b"⟩)

def directBurn : Bytes := instruction (.directBurn ⟨40, "zupy:v1:a:b"⟩)

end Sample

end Settlement.Ledger
