import Settlement.Proofs.Ledger.Balances
import Settlement.Proofs.Ledger.Erasure

/-! Compressed value is conserved. Over a run of transactions and injected failures no balance falls
below zero, and what leaves the sum of the balances is what the logged burns have burned. -/

namespace Settlement.Ledger

structure Conserves (l t : Ledger) : Prop where
  solvent : t.Solvent
  burned : ∃ calls, t.callLog = l.callLog ++ calls ∧ t.total + burnedBy calls = l.total

namespace Conserves

variable {l s t : Ledger}

theorem refl (h : l.Solvent) : Conserves l l :=
  ⟨h, [], (List.append_nil _).symm, Int.add_zero _⟩

theorem trans (h : Conserves l s) (h' : Conserves s t) : Conserves l t := by
  obtain ⟨cs, hlog, htotal⟩ := h.burned
  obtain ⟨ds, hlog', htotal'⟩ := h'.burned
  refine ⟨h'.solvent, cs ++ ds, by rw [hlog', hlog, List.append_assoc], ?_⟩
  rw [burnedBy_append]
  omega

/-- What changes neither the balances nor the log conserves. -/
theorem of_kept (h : l.Solvent) (hcompressed : t.compressed = l.compressed)
    (hlog : t.callLog = l.callLog) : Conserves l t := by
  refine ⟨h.of_compressed hcompressed, [], by rw [hlog, List.append_nil], ?_⟩
  rw [total_of_compressed hcompressed]
  exact Int.add_zero _

end Conserves

/-! One action. -/

section Action

variable {l : Ledger} {a : Action}

theorem failCall_apply (l : Ledger) (index detail : Json.Value) :
    ((Action.failCall index detail).apply l).compressed = l.compressed ∧
      ((Action.failCall index detail).apply l).callLog = l.callLog := by
  by_cases hkey : index.isKey
  · simp only [Action.apply, failCall, hkey, if_true, and_self]
  · simp only [Action.apply, failCall, hkey, Bool.false_eq_true, if_false, and_self]

theorem Action.conserves (hl : l.Solvent) (h : a.Settles l) : Conserves l (a.apply l) := by
  cases a with
  | failCall index detail =>
    obtain ⟨hcompressed, hlog⟩ := failCall_apply l index detail
    exact .of_kept hl hcompressed hlog
  | execute accounts data =>
    cases houtcome : (l.execute accounts data).outcome with
    | ok receipt =>
      have hmoved := execute_moved houtcome hl
      exact ⟨hmoved.solvent, receipt.calls, execute_callLog houtcome, hmoved.total⟩
    | error e =>
      obtain ⟨s, rfl⟩ := h e houtcome
      have hrestored := execute_signal houtcome
      exact .of_kept hl hrestored.compressed hrestored.callLog

/-- A split transfer burns nothing, whichever of its three accounts are the same. -/
theorem splitTransfer_total {accounts : List AccountView} {data payload : Bytes} (hl : l.Solvent)
    (h : (Action.execute accounts data).Settles l)
    (route : Operation.route data = .ok (.splitTransfer, payload)) :
    (l.execute accounts data).ledger.total = l.total := by
  cases houtcome : (l.execute accounts data).outcome with
  | ok receipt =>
    obtain ⟨-, validated, -⟩ := execute_receipt houtcome
    have hburned : burnedBy receipt.calls = 0 := by
      generalize receipt.calls = calls at validated
      cases validated with
      | splitTransfer => rfl
      | directBurn route' =>
        rw [route] at route'
        cases route'
      | organizationBurn route' =>
        rw [route] at route'
        cases route'
    have htotal := (execute_moved houtcome hl).total
    omega
  | error e =>
    obtain ⟨s, rfl⟩ := h e houtcome
    exact total_of_compressed (execute_signal houtcome).compressed

end Action

/-! The states of a run. -/

section Run

variable {l : Ledger} {actions : List Action}

theorem run_take_succ {a : Action} {n : Nat} (h : actions[n]? = some a) :
    l.run (actions.take (n + 1)) = a.apply (l.run (actions.take n)) := by
  rw [run, run, List.take_add_one, h, Option.toList_some, List.foldl_append]
  rfl

theorem Orderly.settles {a : Action} {n : Nat} (horderly : l.Orderly actions)
    (h : actions[n]? = some a) : a.Settles (l.run (actions.take n)) := by
  induction actions generalizing l n with
  | nil => cases h
  | cons b rest ih =>
    obtain ⟨hfirst, hrest⟩ := horderly
    cases n with
    | zero =>
      cases h
      exact hfirst
    | succ n => exact ih hrest h

theorem length_committed_le (l : Ledger) (actions : List Action) :
    (l.committed actions).length ≤ actions.length := by
  induction actions generalizing l with
  | nil => exact Nat.le_refl 0
  | cons a rest ih =>
    have hrest := ih (a.apply l)
    simp only [committed]
    split <;> simp only [List.length_cons] <;> omega

/-- A run in which every action returns a receipt is orderly. -/
theorem orderly_of_committed (h : (l.committed actions).length = actions.length) :
    l.Orderly actions := by
  induction actions generalizing l with
  | nil => trivial
  | cons a rest ih =>
    have hrest := length_committed_le (a.apply l) rest
    cases hreceipt : a.receipt? l with
    | none =>
      simp only [committed, hreceipt, List.length_cons] at h
      omega
    | some receipt =>
      simp only [committed, hreceipt, List.length_cons, Nat.add_right_cancel_iff] at h
      refine ⟨?_, ih h⟩
      cases a with
      | failCall => trivial
      | execute accounts data =>
        intro e he
        simp only [Action.receipt?, he, Except.toOption, reduceCtorEq] at hreceipt

theorem run_take_conserves (hl : l.Solvent) (horderly : l.Orderly actions) (n : Nat) :
    Conserves l (l.run (actions.take n)) := by
  induction n with
  | zero => exact .refl hl
  | succ n ih =>
    cases hnext : actions[n]? with
    | none =>
      have hlength := List.getElem?_eq_none_iff.1 hnext
      rw [List.take_of_length_le (by omega)]
      rwa [List.take_of_length_le hlength] at ih
    | some a =>
      rw [run_take_succ hnext]
      exact ih.trans (Action.conserves ih.solvent (horderly.settles hnext))

end Run

section Sample

/-- A payment of 120 and then a burn of 40. -/
def sampleActions : List Action :=
  [.execute Sample.splitTransferViews Sample.splitTransfer,
    .execute Sample.organizationBurnViews Sample.organizationBurn]

def sampleFunded : Ledger := Sample.funded 1000 500

theorem sample_route :
    Operation.route Sample.splitTransfer = .ok (.splitTransfer, Sample.splitTransfer.drop 8) := by
  decide +kernel

theorem sample_receipts :
    (sampleFunded.committed sampleActions).map (fun done => burnedBy done.2.calls) = [0, 40] := by
  decide +kernel

theorem sampleActions_orderly : sampleFunded.Orderly sampleActions := by
  have hlength : (sampleFunded.committed sampleActions).length = 2 := by
    simpa using congrArg List.length sample_receipts
  exact orderly_of_committed hlength

end Sample

/-- In every state of a run no balance is negative, and the balances together with what the new
calls in the log have burned make up what there was. Split transfers keep the sum as it is. -/
theorem run_conserves_total {l : Ledger} {actions : List Action} (hl : l.Solvent)
    (h : l.Orderly actions) (n : Nat) :
    let t := l.run (actions.take n)
    t.Solvent ∧
      (∃ calls, t.callLog = l.callLog ++ calls ∧ t.total + burnedBy calls = l.total) ∧
      ∀ accounts data payload, actions[n]? = some (.execute accounts data) →
        Operation.route data = .ok (.splitTransfer, payload) →
        (l.run (actions.take (n + 1))).total = t.total := by
  intro t
  have hconserves : Conserves l t := run_take_conserves hl h n
  refine ⟨hconserves.solvent, hconserves.burned, ?_⟩
  intro accounts data payload hnext route
  rw [run_take_succ hnext]
  exact splitTransfer_total hconserves.solvent (h.settles hnext) route

/-- The payment leaves 1500 as they are, and the burn takes from them what it logs. -/
theorem sample_conserves_total :
    sampleFunded.Solvent ∧ sampleFunded.Orderly sampleActions ∧
      (sampleFunded.run (sampleActions.take 1)).total = 1500 ∧
      (sampleFunded.run sampleActions).total + burnedBy (sampleFunded.run sampleActions).callLog =
        1500 := by
  have hsolvent : sampleFunded.Solvent := Sample.funded_solvent (by omega) (by omega)
  have hbefore : sampleFunded.total = 1500 := by decide
  have hconserves := run_conserves_total hsolvent sampleActions_orderly
  have htransfer := (hconserves 0).2.2 _ _ _ rfl sample_route
  obtain ⟨-, ⟨calls, hlog, htotal⟩, -⟩ := hconserves 2
  have hnone : sampleFunded.callLog = [] := rfl
  have hrun : sampleActions.take 2 = sampleActions := rfl
  rw [hnone, List.nil_append, hrun] at hlog
  rw [hrun, ← hlog] at htotal
  exact ⟨hsolvent, sampleActions_orderly, htransfer.trans hbefore, htotal.trans hbefore⟩

end Settlement.Ledger
