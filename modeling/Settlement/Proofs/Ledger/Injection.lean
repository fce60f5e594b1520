import Settlement.Proofs.Ledger.Erasure
import Settlement.Proofs.Ledger.Payment
import Settlement.Proofs.Program.Cost

/-! Injected failures. They fail the transaction that they are meant for at the first call that has
one, and only this transaction: what comes after it goes as if neither the failures nor the signers
of the transaction had ever been there. -/

namespace Settlement

open Outcome

namespace Ledger

variable {l s t : Ledger} {caller : Bytes} {c : Call}

/-! What can be seen of a ledger. The monitor, the signers and the number of calls have no part in
what later transactions do. -/

/-- The ledger without its monitor and without what belongs to the transaction under way, except for
the failures that wait for the next one. -/
def visible (l : Ledger) : Ledger := { l with signers := [], callIndex := 0, metrics := none }

def withMetrics (metrics : Option Metrics) (l : Ledger) : Ledger := { l with metrics := metrics }

/-- A monitor does not change how calls are answered. -/
theorem host_withMetrics (metrics : Option Metrics) : host.Image (withMetrics metrics) host := by
  intro caller c l
  change (l.withMetrics metrics).invoke caller c =
    ((l.invoke caller c).1, (l.invoke caller c).2.withMetrics metrics)
  have hauth : (l.withMetrics metrics).authorize caller c = l.authorize caller c := rfl
  cases hl : l.authorize caller c with
  | error e => rw [invoke_of_unauthorized hl, invoke_of_unauthorized (hauth.trans hl)]; rfl
  | ok u =>
    cases hc : changes c with
    | error e =>
      simp only [invoke, hauth, hl, hc]
      rfl
    | ok cs =>
      have hlocal := changes_local hc
      have hframe := inOrder_frame hlocal l.counted
      have hsame := inOrder_withStores hlocal (l.withMetrics metrics).counted l.counted
      have hself : (l.withMetrics metrics).counted.withStores l.counted =
          (l.withMetrics metrics).counted := rfl
      rw [hself] at hsame
      rw [invoke_of_authorized hl hc, invoke_of_authorized (hauth.trans hl) hc, inOrder_logCall,
        inOrder_logCall, hsame]
      rcases hrun : inOrder cs l.counted with ⟨outcome, k⟩
      rw [hrun] at hframe
      simp only at hframe
      rw [hframe]
      cases outcome <;> rfl

theorem visible_eq_iff : l.visible = t.visible ↔ Restored l t ∧ t.failing = l.failing := by
  simp only [visible, Ledger.mk.injEq, true_and, and_true]
  constructor
  · rintro ⟨hprogram, haccounts, hcompressed, hlog, hfailing⟩
    exact ⟨⟨hprogram.symm, haccounts.symm, hcompressed.symm, hlog.symm⟩, hfailing.symm⟩
  · rintro ⟨h, hfailing⟩
    exact ⟨h.program.symm, h.accounts.symm, h.compressed.symm, h.callLog.symm, hfailing.symm⟩

section Visible

variable (h : l.visible = t.visible) (accounts : List AccountView) (data : Bytes)

include h

theorem opened_of_visible : t.opened accounts = (l.opened accounts).withMetrics t.metrics := by
  obtain ⟨hsame, hfailing⟩ := visible_eq_iff.1 h
  simp only [opened, startTransaction, withMetrics, hsame.program, hsame.accounts,
    hsame.compressed, hsame.callLog, hfailing]

theorem snapshot_of_visible : t.snapshot = l.snapshot := by
  obtain ⟨hsame, -⟩ := visible_eq_iff.1 h
  simp only [snapshot, hsame.accounts, hsame.compressed, hsame.callLog]

/-- What an instruction does and leaves behind depends on what can be seen of a ledger. -/
theorem execute_of_visible :
    (t.execute accounts data).outcome = (l.execute accounts data).outcome ∧
      (t.execute accounts data).log = (l.execute accounts data).log ∧
      (l.execute accounts data).ledger.visible = (t.execute accounts data).ledger.visible := by
  have himage := (host_withMetrics t.metrics).process l.program accounts data l.metrics t.metrics
    (l.opened accounts)
  rw [← opened_of_visible h] at himage
  obtain ⟨houtcome, -, -, hhost, hlog⟩ := himage
  have hopen (k : Ledger) : (k.startTransaction (signerKeys accounts)).process accounts data =
      let p := k.program.process host accounts data k.metrics (k.opened accounts)
      ⟨p.outcome, { p.host with metrics := p.metrics }, p.log⟩ := rfl
  simp only [execute, snapshot_of_visible h, hopen, (visible_eq_iff.1 h).1.program, houtcome,
    hhost, hlog]
  cases l.snapshot with
  | error e => exact ⟨rfl, rfl, h⟩
  | ok saved =>
    cases (l.program.process host accounts data l.metrics (l.opened accounts)).outcome with
    | ok receipt => exact ⟨rfl, rfl, rfl⟩
    | error e =>
      cases he : e.signal? with
      | none =>
        simp only [he, true_and]
        rfl
      | some signal =>
        simp only [he, true_and]
        rfl

end Visible

def arm (failing : List (Json.Value × Json.Value)) (l : Ledger) : Ledger :=
  { l with failing := failing }

section Armed

variable {cs : List Call} (failing : List (Json.Value × Json.Value))

/-- A call that would be authorized is asked for nothing more than that no failure waits for it. -/
theorem authorize_armed (h : l.authorize caller c = .ok ()) :
    (l.arm failing).authorize caller c =
      match (l.arm failing).injected? l.callIndex with
      | some detail => .error (.signal (.external c.program detail))
      | none => .ok () := by
  have hhandles : (l.arm failing).handles c = l.handles c := rfl
  have hsigned : (l.arm failing).signedKeys caller c = l.signedKeys caller c := rfl
  simp only [Ledger.authorize, refuse, error_bind, guard_eq_ok, bind_eq_ok] at h
  obtain ⟨hhandled, signed, hkeys, hmissing, -⟩ := h
  simp only [Ledger.authorize, hhandles, hsigned, hkeys, hhandled, hmissing, ok_bind, if_false,
    Bool.false_eq_true]
  rfl

theorem invoke_armed (hidle : l.failing = [])
    (h : host.invoke caller c l = (.ok (), t)) :
    t.failing = [] ∧ t.callIndex = l.callIndex + 1 ∧
      match (l.arm failing).injected? l.callIndex with
      | none => host.invoke caller c (l.arm failing) = (.ok (), t.arm failing)
      | some detail => host.invoke caller c (l.arm failing) =
          (.error (.signal (.external c.program detail)), (l.arm failing).counted) := by
  cases invoked_of_host h with
  | @applied changed next hauth hchanges hrun =>
    refine ⟨hidle, rfl, ?_⟩
    have hauthorize := authorize_armed failing hauth
    cases hinjected : (l.arm failing).injected? l.callIndex with
    | some detail =>
      rw [hinjected] at hauthorize
      exact invoke_of_unauthorized hauthorize
    | none =>
      rw [hinjected] at hauthorize
      have hchanged := inOrder_withStores (changes_local hchanges) (l.arm failing).counted l.counted
      have hself : (l.arm failing).counted.withStores l.counted = (l.arm failing).counted := rfl
      rw [hself, hrun] at hchanged
      change (l.arm failing).invoke caller c = _
      rw [invoke_of_authorized hauthorize hchanges, inOrder_logCall, hchanged]
      rfl

theorem ends_armed (hidle : l.failing = []) (h : host.Settles caller cs l t) {k : Nat} {c : Call}
    {detail : Json.Value} (hc : cs[k]? = some c)
    (hdetail : (l.arm failing).injected? (l.callIndex + k) = some detail)
    (hnone : ∀ j < k, (l.arm failing).injected? (l.callIndex + j) = none) :
    host.Ends caller cs (l.arm failing) (some (.signal (.external c.program detail))) := by
  induction h generalizing k with
  | nil => cases hc
  | @cons first cs l s t hanswers rest ih =>
    obtain ⟨hidle', hindex, hanswer⟩ := invoke_armed failing hidle hanswers
    cases k with
    | zero =>
      cases hc
      have hfirst : (l.arm failing).injected? l.callIndex = some detail := hdetail
      rw [hfirst] at hanswer
      exact .failed hanswer
    | succ k =>
      have hfirst : (l.arm failing).injected? l.callIndex = none := hnone 0 (by omega)
      rw [hfirst] at hanswer
      have hshift (j : Nat) : s.callIndex + j = l.callIndex + (j + 1) := by omega
      refine .cons hanswer (ih hidle' hc ?_ fun j hj => ?_)
      · rw [hshift]
        exact hdetail
      · rw [hshift]
        exact hnone (j + 1) (by omega)

end Armed

theorem injected?_opened (l : Ledger) (accounts : List AccountView)
    (failing : List (Json.Value × Json.Value)) (k : Nat) :
    (((l.arm []).opened accounts).arm failing).injected?
        (((l.arm []).opened accounts).callIndex + k) = (l.arm failing).injected? k := by
  have hfirst : ((l.arm []).opened accounts).callIndex = 0 := rfl
  rw [hfirst, Nat.zero_add]
  rfl

section Execution

variable {accounts : List AccountView} {data : Bytes} {receipt : Receipt}
  {failing : List (Json.Value × Json.Value)}
  (h : ((l.arm []).execute accounts data).outcome = .ok receipt)

include h

/-- The answers to its calls decide how the instruction ends. -/
theorem execute_of_ends {fault : Option Fault}
    (ends : host.Ends l.program.address receipt.calls ((l.arm failing).opened accounts) fault) :
    ((l.arm failing).execute accounts data).outcome = fault.elim (.ok receipt) .error := by
  obtain ⟨⟨saved, hsaved⟩, -⟩ := execute_receipt h
  have hsaved' : (l.arm failing).snapshot = .ok saved := hsaved
  have hprocess := (execute_of_snapshot hsaved).1.symm.trans h
  exact (execute_of_snapshot hsaved').1.trans (Program.process_of_ends hprocess ends)

theorem execute_stopped {k : Nat} {c : Call} {detail : Json.Value}
    (hc : receipt.calls[k]? = some c) (hdetail : (l.arm failing).injected? k = some detail)
    (hnone : ∀ j < k, (l.arm failing).injected? j = none) :
    ((l.arm failing).execute accounts data).outcome =
      .error (.signal (.external c.program detail)) := by
  obtain ⟨-, -, t, m, settles, -⟩ := execute_receipt h
  exact execute_of_ends h (ends_armed failing rfl settles hc
    ((injected?_opened l accounts failing k).trans hdetail)
    fun j hj => (injected?_opened l accounts failing j).trans (hnone j hj))

/-- Whatever waited for the transaction is gone after it. -/
theorem execute_disarms : ((l.arm failing).execute accounts data).ledger.failing = [] := by
  obtain ⟨⟨saved, hsaved⟩, -⟩ := execute_receipt h
  have hsaved' : (l.arm failing).snapshot = .ok saved := hsaved
  have executed := execute_executed (l.arm failing) accounts data
  generalize ((l.arm failing).execute accounts data).outcome = outcome at executed
  generalize ((l.arm failing).execute accounts data).ledger = t at executed ⊢
  cases executed with
  | unsaved hunsaved =>
    rw [hsaved'] at hunsaved
    cases hunsaved
  | committed => rfl
  | restored => rfl
  | abandoned => rfl

end Execution

namespace Sample

end Sample

end Ledger
end Settlement
