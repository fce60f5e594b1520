import Mathlib.Algebra.Order.BigOperators.Group.List
import Mathlib.Algebra.Order.Group.Int
import Settlement.Proofs.Ledger.Balances

/-! What a ledger has room for. A snapshot takes words of eight bytes, and a balance that has grown
beyond them stops every later transaction. A settlement takes a ledger there exactly if what it
gives to some key is too much for the balance of that key. -/

namespace Settlement

namespace Json.Value

/-- A whole number that is an unsigned word of eight bytes. -/
def IsWord (v : Value) : Prop := ∃ n, v.integer? = some n ∧ 0 ≤ n ∧ n < 2 ^ 64

instance (v : Value) : Decidable v.IsWord :=
  decidable_of_iff (∃ n ∈ v.integer?, 0 ≤ n ∧ n < 2 ^ 64) Iff.rfl

variable {v : Value} {room : Nat}

theorem IsWord.saved (h : v.IsWord) : v.saved room = .ok () := by
  obtain ⟨n, hn, hpos, hlt⟩ := h
  cases v with
  | int m =>
    cases hn
    exact saved_int.2 ⟨by omega, hlt⟩
  | bool b => rfl
  | _ => cases hn

/-- A whole number that is not negative is saved, or it is no word and out of range. -/
theorem saved_or_wordRange {n : Int} (hn : v.integer? = some n) (hpos : 0 ≤ n) :
    v.saved room = .ok () ∧ v.IsWord ∨ v.saved room = .error .wordRange := by
  by_cases hlt : n < 2 ^ 64
  · have hword : v.IsWord := ⟨n, hn, hpos, hlt⟩
    exact .inl ⟨hword.saved, hword⟩
  · cases v with
    | int m =>
      cases hn
      refine .inr ?_
      have hbeyond : ¬ (-2 ^ 63 ≤ n ∧ n < 2 ^ 64) := fun h => hlt h.2
      simp only [Value.saved, hbeyond, if_false]
    | bool b => cases b <;> cases hn <;> omega
    | _ => cases hn

end Json.Value

namespace Ledger

open Outcome

structure Fits (l : Ledger) : Prop where
  balances : ∀ key, (l.compressedBalance key).IsWord
  lamports : ∀ key a, l.accounts.get? key = some a → a.lamports.IsWord

theorem Fits.solvent {l : Ledger} (h : l.Fits) : l.Solvent := by
  intro key
  obtain ⟨n, hn, hpos, -⟩ := h.balances key
  exact ⟨n, hn, hpos⟩

theorem compressedBalance_of_get? {l : Ledger} {key : Bytes} {v : Json.Value}
    (h : l.compressed.get? key = some v) : l.compressedBalance key = v := by
  rw [compressedBalance, h, Option.getD_some]

theorem fits_iff {l : Ledger} : l.Fits ↔
    (∀ v ∈ l.compressed.values, v.IsWord) ∧ ∀ a ∈ l.accounts.values, a.lamports.IsWord := by
  constructor
  · refine fun h => ⟨fun v hv => ?_, fun a ha => ?_⟩
    · obtain ⟨key, hkey⟩ := Store.mem_values_iff.1 hv
      rw [← compressedBalance_of_get? hkey]
      exact h.balances key
    · obtain ⟨key, hkey⟩ := Store.mem_values_iff.1 ha
      exact h.lamports key a hkey
  · refine fun h => ⟨fun key => ?_, fun key a ha => h.2 a (Store.mem_values_iff.2 ⟨key, ha⟩)⟩
    cases hkey : l.compressed.get? key with
    | none =>
      rw [compressedBalance, hkey]
      exact ⟨0, rfl, by omega, by omega⟩
    | some v =>
      rw [compressedBalance_of_get? hkey]
      exact h.1 v (Store.mem_values_iff.2 ⟨key, hkey⟩)

instance (l : Ledger) : Decidable l.Fits :=
  decidable_of_iff _ fits_iff.symm

theorem Solvent.isWord_iff {l : Ledger} (h : l.Solvent) (key : Bytes) :
    (l.compressedBalance key).IsWord ↔ l.balance key < 2 ^ 64 := by
  obtain ⟨hbalance, hpos⟩ := h.balance key
  constructor
  · rintro ⟨n, hn, -, hlt⟩
    rw [hbalance] at hn
    cases hn
    exact hlt
  · intro hlt
    exact ⟨_, hbalance, hpos, hlt⟩

/-! Snapshots. -/

section Snapshot

variable {l : Ledger}

theorem lamports_saved (h : ∀ a ∈ l.accounts.values, a.lamports.IsWord) :
    (l.accounts.values.forM fun a => a.lamports.saved (balanceRoom - 1)) = .ok () :=
  forM_eq_ok.2 fun a ha => (h a ha).saved

theorem Fits.snapshot (h : l.Fits) : ∃ saved, l.snapshot = .ok saved := by
  obtain ⟨hwords, hlamports⟩ := fits_iff.1 h
  have hbalances : (l.compressed.values.forM fun balance => balance.saved balanceRoom) =
      .ok () := forM_eq_ok.2 fun v hv => (hwords v hv).saved
  refine ⟨⟨l.accounts, l.compressed, l.callLog.length⟩, ?_⟩
  simp only [Ledger.snapshot, lamports_saved hlamports, hbalances, ok_bind]
  rfl

/-- A ledger without debts that does not fit has no snapshot. -/
theorem snapshot_beyond (hl : l.Solvent) (hlamports : ∀ a ∈ l.accounts.values, a.lamports.IsWord)
    (h : ¬ l.Fits) : l.snapshot = .error .wordRange := by
  have hsaved (v : Json.Value) (hv : v ∈ l.compressed.values) :
      v.saved balanceRoom = .ok () ∧ v.IsWord ∨ v.saved balanceRoom = .error .wordRange := by
    obtain ⟨key, hkey⟩ := Store.mem_values_iff.1 hv
    obtain ⟨n, hn, hpos⟩ := hl key
    rw [compressedBalance_of_get? hkey] at hn
    exact Json.Value.saved_or_wordRange hn hpos
  cases hbalances : l.compressed.values.forM fun balance => balance.saved balanceRoom with
  | ok u =>
    refine absurd (fits_iff.2 ⟨fun v hv => ?_, hlamports⟩) h
    rcases hsaved v hv with ⟨-, hword⟩ | hbeyond
    · exact hword
    · rw [forM_eq_ok.1 hbalances v hv] at hbeyond
      cases hbeyond
  | error e =>
    obtain ⟨v, hv, he⟩ := exists_of_forM_eq_error hbalances
    rcases hsaved v hv with ⟨hok, -⟩ | hbeyond
    · rw [hok] at he
      cases he
    · rw [hbeyond] at he
      cases he
      simp only [Ledger.snapshot, lamports_saved hlamports, hbalances, ok_bind, error_bind]

theorem execute_of_unsaved {e : Fault} (h : l.snapshot = .error e) (accounts : List AccountView)
    (data : Bytes) : l.execute accounts data = ⟨.error e, l, []⟩ := by
  simp only [execute, h]

end Snapshot

/-! Calls write the data of accounts, and leave their lamports alone. -/

section Lamports

def SameLamports (l t : Ledger) : Prop :=
  ∀ key, (t.accounts.get? key).map (·.lamports) = (l.accounts.get? key).map (·.lamports)

variable {l s t : Ledger} {caller : Bytes} {c : Call} {n : Int}

theorem SameLamports.of_eq (h : t.accounts = l.accounts) : SameLamports l t :=
  fun key => by rw [h]

theorem SameLamports.trans (h : SameLamports l s) (h' : SameLamports s t) : SameLamports l t :=
  fun key => (h' key).trans (h key)

theorem sameLamports_setAccount {key : Bytes} {a : Account} (h : l.accounts.get? key = some a)
    (data : Bytes) : SameLamports l (l.setAccount key { a with data := data }) := by
  intro other
  rw [setAccount, Store.get?_set]
  by_cases hother : other = key
  · rw [if_pos hother, hother, h]
    rfl
  · rw [if_neg hother]

theorem reduceSupply_sameLamports (hn : c.amount = .int n) {mint : Bytes}
    (h : reduceSupply c mint l = .ok t) : SameLamports l t := by
  rw [reduceSupply_int hn] at h
  rcases adjustSupply_ok h with rfl | ⟨a, data, ha, rfl⟩
  · exact .of_eq rfl
  · exact sameLamports_setAccount ha data

theorem Invoked.sameLamports (h : Invoked caller c l (.ok (), t)) (hc : c.Prepared n)
    (hpos : 0 ≤ n) : SameLamports l t := by
  cases hc with
  | @transfer payer source destination system hkind haccounts hn =>
    exact .of_eq (transfer_effect hn hpos (changes_transfer hkind haccounts) h).1
  | @compressedBurn payer source mint system hkind haccounts hn =>
    obtain ⟨s, u, hdebit, hreduce, haccounts, -⟩ :=
      invoked_pair (changes_compressedBurn hkind haccounts) h
    have hs : SameLamports l s := .of_eq (debitCompressed_effect hdebit).1
    exact (hs.trans (reduceSupply_sameLamports hn hreduce)).trans (.of_eq haccounts)
  | @tokenBurn token mint owner hkind haccounts hn =>
    obtain ⟨s, u, hdebit, hreduce, haccounts, -⟩ :=
      invoked_pair (changes_tokenBurn hkind haccounts) h
    obtain ⟨a, held, data, ha, -, -, -, -, -, rfl⟩ := debitToken_ok hn hdebit
    have hs := sameLamports_setAccount (l := l.counted) ha data
    exact (hs.trans (reduceSupply_sameLamports hn hreduce)).trans (.of_eq haccounts)

theorem settles_sameLamports {cs : List Call} (settles : host.Settles caller cs l t)
    (hcs : ∀ c ∈ cs, ∃ n : Int, c.Prepared n ∧ 0 ≤ n ∧ n < 2 ^ 64) : SameLamports l t := by
  induction settles with
  | nil => exact .of_eq rfl
  | @cons c cs l s t first rest ih =>
    obtain ⟨n, hprepared, hpos, -⟩ := hcs c List.mem_cons_self
    have hfirst := (invoked_of_host first).sameLamports hprepared hpos
    exact hfirst.trans (ih fun d hd => hcs d (List.mem_cons_of_mem _ hd))

theorem execute_lamports {accounts : List AccountView} {data : Bytes} {receipt : Receipt}
    (h : (l.execute accounts data).outcome = .ok receipt)
    (hl : ∀ key a, l.accounts.get? key = some a → a.lamports.IsWord) :
    ∀ key a, (l.execute accounts data).ledger.accounts.get? key = some a → a.lamports.IsWord := by
  obtain ⟨-, validated, t, m, settles, hledger⟩ := execute_receipt h
  have hopened : SameLamports (l.opened accounts) t :=
    settles_sameLamports settles validated.prepared
  have hsame : SameLamports l t := hopened
  rw [hledger]
  intro key a ha
  have hafter : t.accounts.get? key = some a := ha
  have hbefore := hsame key
  rw [hafter, Option.map_some] at hbefore
  obtain ⟨b, hb, hlamports⟩ := Option.map_eq_some_iff.1 hbefore.symm
  rw [← hlamports]
  exact hl key b hb

end Lamports

/-! A balance that is not negative is a part of the sum. -/

section Total

theorem Solvent.balance_le_total {l : Ledger} (h : l.Solvent) (key : Bytes) :
    l.balance key ≤ l.total := by
  have hcounts : ∀ n ∈ l.compressed.values.map Json.Value.count, 0 ≤ n := by
    intro n hn
    obtain ⟨v, hv, rfl⟩ := List.mem_map.1 hn
    obtain ⟨k, hk⟩ := Store.mem_values_iff.1 hv
    have hpos := (h.balance k).2
    rwa [Ledger.balance, compressedBalance_of_get? hk] at hpos
  cases hkey : l.compressed.get? key with
  | none =>
    have hzero : l.balance key = 0 := by
      rw [Ledger.balance, compressedBalance, hkey]
      rfl
    rw [hzero]
    exact List.sum_nonneg hcounts
  | some v =>
    rw [Ledger.balance, compressedBalance_of_get? hkey]
    exact List.single_le_sum hcounts _ (List.mem_map_of_mem (Store.mem_values_iff.2 ⟨key, hkey⟩))

theorem burnedBy_nonneg {calls : List Call}
    (h : ∀ c ∈ calls, ∃ n : Int, c.Prepared n ∧ 0 ≤ n ∧ n < 2 ^ 64) : 0 ≤ burnedBy calls := by
  refine List.sum_nonneg fun b hb => ?_
  obtain ⟨c, hc, rfl⟩ := List.mem_map.1 hb
  obtain ⟨n, hprepared, hpos, -⟩ := h c hc
  rw [Call.burned, hprepared.amount_eq]
  split
  · exact hpos
  · exact Int.le_refl 0

end Total

/-- The ledger after a receipt fits exactly if no balance has come to be given too much, which it
never has while all balances together are one word. If it fits, the next transaction has its
snapshot, and if not, no transaction ever starts again. -/
theorem execute_fits_iff {l : Ledger} {accounts : List AccountView} {data : Bytes}
    {receipt : Receipt} (hl : l.Fits) (h : (l.execute accounts data).outcome = .ok receipt) :
    let t := (l.execute accounts data).ledger
    (t.Fits ↔ ∀ key, l.balance key + gainedBy receipt.calls key < 2 ^ 64) ∧
      (t.Fits → ∃ saved, t.snapshot = .ok saved) ∧
      (¬ t.Fits → ∀ accounts data, t.execute accounts data = ⟨.error .wordRange, t, []⟩) ∧
      (l.total < 2 ^ 64 → t.Fits) := by
  intro t
  have hmoved : Moved l t receipt.calls := execute_moved h hl.solvent
  have hlamports := execute_lamports h hl.lamports
  have hiff : t.Fits ↔ ∀ key, t.balance key < 2 ^ 64 := by
    constructor
    · intro ht key
      exact (hmoved.solvent.isWord_iff key).1 (ht.balances key)
    · intro hlt
      exact ⟨fun key => (hmoved.solvent.isWord_iff key).2 (hlt key), hlamports⟩
  have hvalues : ∀ a ∈ t.accounts.values, a.lamports.IsWord := by
    intro a ha
    obtain ⟨key, hkey⟩ := Store.mem_values_iff.1 ha
    exact hlamports key a hkey
  refine ⟨?_, fun ht => ht.snapshot, fun ht accounts data => ?_, fun htotal => hiff.2 fun key => ?_⟩
  · rw [hiff]
    simp only [hmoved.balance]
  · exact execute_of_unsaved (snapshot_beyond hmoved.solvent hvalues ht) accounts data
  · obtain ⟨-, validated, -⟩ := execute_receipt h
    have hburned := burnedBy_nonneg validated.prepared
    have hle := hmoved.solvent.balance_le_total key
    have hafter := hmoved.total
    omega

/-! The organization holds all that a word can take, and is paid 100 more. -/

namespace Sample

def full : Ledger := funded 120 (2 ^ 64 - 1)

theorem full_fits : full.Fits := by decide +kernel

theorem overpaid_run :
    (full.execute splitTransferViews splitTransfer).outcome.toOption.isSome = true ∧
      ¬ (full.execute splitTransferViews splitTransfer).ledger.Fits := by
  decide +kernel

theorem overpaid_receipt : ∃ receipt,
    (full.execute splitTransferViews splitTransfer).outcome = .ok receipt :=
  ⟨_, eq_ok_of_isSome overpaid_run.1 ⟨.splitTransfer, [], 0, none⟩⟩

end Sample

theorem sample_stopped : Sample.full.Fits ∧
    let t := Sample.full.execute Sample.splitTransferViews Sample.splitTransfer
    (∃ receipt, t.outcome = .ok receipt) ∧
      ∀ accounts data, t.ledger.execute accounts data = ⟨.error .wordRange, t.ledger, []⟩ := by
  obtain ⟨receipt, h⟩ := Sample.overpaid_receipt
  exact ⟨Sample.full_fits, ⟨receipt, h⟩,
    (execute_fits_iff Sample.full_fits h).2.2.1 Sample.overpaid_run.2⟩

theorem execute_not_always_fits : ¬ ∀ (l : Ledger) (accounts : List AccountView) (data : Bytes)
    (receipt : Receipt), l.Fits → (l.execute accounts data).outcome = .ok receipt →
      (l.execute accounts data).ledger.Fits := by
  intro h
  obtain ⟨receipt, hreceipt⟩ := Sample.overpaid_receipt
  exact Sample.overpaid_run.2
    (h Sample.full Sample.splitTransferViews Sample.splitTransfer receipt Sample.full_fits hreceipt)

end Ledger
end Settlement
