import Settlement.Proofs.Address.Search
import Settlement.Proofs.Ledger.Balances
import Settlement.Proofs.Ledger.Signatures

/-! Calls that the ledger grants. A call that a program of the ledger handles, with every signature
that it asks for, fails only for want of what it takes. -/

namespace Settlement

open Outcome

namespace Ledger

variable {l s t : Ledger} {caller : Bytes} {c : Call} {n : Int}

/-- What the ledger asks of a call before it makes any change. -/
structure Granted (l : Ledger) (caller : Bytes) (c : Call) : Prop where
  handled : l.handles c = true
  lent : ∀ seeds ∈ c.signers, ∃ key, createAddress seeds caller = .ok key
  signed : ∀ ref ∈ c.accounts, ref.signer = true → Signed l caller c ref.key
  undisturbed : l.failing = []

/-- If every lent capability derives an address, the keys that sign are known. -/
theorem signedKeys_of_lent (h : ∀ seeds ∈ c.signers, ∃ key, createAddress seeds caller = .ok key) :
    ∃ keys, l.signedKeys caller c = .ok keys ∧ ∀ key, key ∈ keys ↔ Signed l caller c key := by
  have hcreated : ∀ seeds ∈ c.signers, ∃ key, createAddress seeds caller = .ok key ∧ True :=
    fun seeds hseeds => (h seeds hseeds).imp fun _ hkey => ⟨hkey, trivial⟩
  obtain ⟨lent, hlent, -⟩ := mapM_ok hcreated
  refine ⟨l.signers ++ lent, by simp only [signedKeys, hlent], fun key => ?_⟩
  rw [List.mem_append, mem_mapM_ok hlent, Signed]

theorem Granted.authorize (h : Granted l caller c) : l.authorize caller c = .ok () := by
  obtain ⟨keys, hkeys, hmem⟩ := signedKeys_of_lent (l := l) h.lent
  have hall : (c.accounts.any fun a => a.signer && !keys.contains a.key) = false := by
    rw [List.any_eq_false]
    intro ref href hmissing
    obtain ⟨hsigner, hmissing⟩ := Bool.and_eq_true_iff.1 hmissing
    have hin : ref.key ∈ keys := (hmem _).2 (h.signed ref href hsigner)
    simp [hin] at hmissing
  have hnone : l.injected? l.callIndex = none := by
    rw [injected?, h.undisturbed]
    rfl
  simp only [Ledger.authorize, h.handled, hkeys, hall, hnone, ok_bind]
  rfl

theorem authorize_unsigned (hhandled : l.handles c = true)
    (hlent : ∀ seeds ∈ c.signers, ∃ key, createAddress seeds caller = .ok key) {ref : AccountMeta}
    (href : ref ∈ c.accounts) (hsigner : ref.signer = true) (hmissing : ¬ Signed l caller c ref.key) :
    l.authorize caller c = .error (rejection c "missing required signature") := by
  obtain ⟨keys, hkeys, hmem⟩ := signedKeys_of_lent (l := l) hlent
  have hout : ref.key ∉ keys := fun hin => hmissing ((hmem _).1 hin)
  have hany : (c.accounts.any fun a => a.signer && !keys.contains a.key) = true :=
    List.any_eq_true.2 ⟨ref, href, by simp [hsigner, hout]⟩
  simp only [Ledger.authorize, hhandled, hkeys, hany, ok_bind, error_bind]
  rfl

theorem invoke_of_unauthorized {e : Fault} (h : l.authorize caller c = .error e) :
    l.invoke caller c = (.error e, l.counted) := by
  simp only [invoke, h]
  rfl

theorem handles_of_compressed (hkind : c.kind = .compressedTransfer ∨ c.kind = .compressedBurn)
    (hprogram : c.program = l.programs.compressedToken)
    (hne : l.programs.compressedToken ≠ l.programs.token) : l.handles c = true := by
  rcases hkind with hkind | hkind <;> simp [handles, hkind, hprogram, hne]

section Kinds

variable {payer source destination mint system token owner : AccountMeta} {a : Account}
  {supply : Nat}

section Transfer

variable (hc : Granted l caller c) (hkind : c.kind = .compressedTransfer)
  (haccounts : c.accounts = [payer, source, destination, system]) (hn : c.amount = .int n)
  (hl : l.WholeBalances)

include hc hkind haccounts hn hl

end Transfer

end Kinds

/-! Calls of accepted instructions. Whoever pays a fee signs the transaction. -/

section Accepted

variable {accounts : List AccountView} {data : Bytes} {recordView : AccountView}

end Accepted

end Ledger
end Settlement
