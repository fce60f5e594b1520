import Settlement.Proofs.Ledger.Balances
import Settlement.Proofs.Ledger.Layout

/-! What receipts make of the supply of a mint. A burn of tokens takes as much from the supply as
from the token accounts, and one of compressed balances from the supply alone. -/

namespace Settlement

open Outcome

namespace Ledger

/-! Calls on the accounts of a mint. -/

section Calls

variable {program mint : Bytes} {created : List Bytes} {l s t : Ledger} {caller : Bytes} {c : Call}
  {n : Int}

/-- A call that moves a whole amount, or burns it of the mint and, if it burns tokens, of an account
that was created. -/
inductive Aimed (mint : Bytes) (created : List Bytes) (c : Call) (n : Int) : Prop
  | transfer {payer source destination system : AccountMeta} :
      c.kind = .compressedTransfer → c.accounts = [payer, source, destination, system] →
      c.amount = .int n → Aimed mint created c n
  | compressedBurn {payer source burned system : AccountMeta} :
      c.kind = .compressedBurn → c.accounts = [payer, source, burned, system] →
      c.amount = .int n → burned.key = mint → Aimed mint created c n
  | tokenBurn {token burned owner : AccountMeta} :
      c.kind = .tokenBurn → c.accounts = [token, burned, owner] → c.amount = .int n →
      token.key ∈ created → burned.key = mint → Aimed mint created c n

/-- What calls have made of a ledger: supply and tokens fall alike, but for what was burned of
compressed balances. -/
structure Posted (program mint : Bytes) (created : List Bytes) (l t : Ledger) (calls : List Call) :
    Prop where
  laid : Laid program mint created t
  even : t.supplyCount mint + burnedBy calls - t.tokenTotal created =
    l.supplyCount mint - l.tokenTotal created

theorem Posted.trans {cs ds : List Call} (h : Posted program mint created l s cs)
    (h' : Posted program mint created s t ds) : Posted program mint created l t (cs ++ ds) where
  laid := h'.laid
  even := by
    have hfirst := h.even
    have hsecond := h'.even
    rw [burnedBy_append]
    omega

theorem Invoked.posted (h : Invoked caller c l (.ok (), t)) (hc : Aimed mint created c n)
    (hpos : 0 ≤ n) (hl : Laid program mint created l) : Posted program mint created l t [c] := by
  have hcounted : Laid program mint created l.counted := hl.of_accounts rfl
  cases hc with
  | @transfer payer source destination system hkind haccounts hn =>
    have hburned : burnedBy [c] = 0 := burnedBy_eq_zero (by simp [hkind])
    obtain ⟨hsame, -⟩ := transfer_effect hn hpos (changes_transfer hkind haccounts) h
    refine ⟨hl.of_accounts hsame, ?_⟩
    rw [supplyCount_of_accounts hsame, tokenTotal_of_accounts hsame, hburned]
    omega
  | @compressedBurn payer source burned system hkind haccounts hn hmint =>
    have hburned : burnedBy [c] = n := burnedBy_compressedBurn hkind hn
    obtain ⟨s, u, hdebit, hreduce, hsame, -⟩ :=
      invoked_pair (changes_compressedBurn hkind haccounts) h
    have hs : s.accounts = l.accounts := (debitCompressed_effect hdebit).1
    rw [hmint, reduceSupply_int hn] at hreduce
    obtain ⟨hlaid, hsupply, htotal, -⟩ := (hl.of_accounts hs).adjustSupply hreduce
    refine ⟨hlaid.of_accounts hsame, ?_⟩
    rw [supplyCount_of_accounts hsame, tokenTotal_of_accounts hsame, hsupply, htotal,
      supplyCount_of_accounts hs, tokenTotal_of_accounts hs, hburned]
    omega
  | @tokenBurn token burned owner hkind haccounts hn htoken hmint =>
    have hburned : burnedBy [c] = 0 := burnedBy_eq_zero (by simp [hkind])
    obtain ⟨s, u, hdebit, hreduce, hsame, -⟩ := invoked_pair (changes_tokenBurn hkind haccounts) h
    rw [hmint] at hdebit hreduce
    obtain ⟨hs, hsupply, htotal, -⟩ := hcounted.debitToken hn htoken hdebit
    rw [reduceSupply_int hn] at hreduce
    obtain ⟨hlaid, hsupply', htotal', -⟩ := hs.adjustSupply hreduce
    have hsupplyCounted : l.counted.supplyCount mint = l.supplyCount mint := rfl
    have htotalCounted : l.counted.tokenTotal created = l.tokenTotal created := rfl
    refine ⟨hlaid.of_accounts hsame, ?_⟩
    rw [supplyCount_of_accounts hsame, tokenTotal_of_accounts hsame, hburned]
    omega

theorem settles_posted {cs : List Call} (settles : host.Settles caller cs l t)
    (hcs : ∀ c ∈ cs, ∃ n : Int, Aimed mint created c n ∧ 0 ≤ n) (hl : Laid program mint created l) :
    Posted program mint created l t cs := by
  induction settles with
  | nil => exact ⟨hl, by rw [burnedBy_nil]; omega⟩
  | @cons c cs l s t first rest ih =>
    obtain ⟨n, aimed, hpos⟩ := hcs c List.mem_cons_self
    have hfirst := (invoked_of_host first).posted aimed hpos hl
    exact hfirst.trans (ih (fun d hd => hcs d (List.mem_cons_of_mem _ hd)) hfirst.laid)

end Calls

/-! Executions on accounts as the ledger shows them. -/

section Execute

variable {mint : Bytes} {created : List Bytes} {l : Ledger} {accounts : List AccountView}
  {data : Bytes}

/-- Accounts that are views of the ledger. -/
def Viewed (l : Ledger) (accounts : List AccountView) : Prop :=
  ∀ v ∈ accounts, ∃ signer writable, v = l.view v.key signer writable

theorem Viewed.stored (h : l.Viewed accounts) {v : AccountView} (hv : v ∈ accounts)
    (hdata : v.data ≠ []) : l.accounts.get? v.key = some v.account := by
  obtain ⟨signer, writable, hview⟩ := h v hv
  have haccount : v.account = (l.accounts.get? v.key).getD .empty := congrArg (·.account) hview
  cases hstored : l.accounts.get? v.key with
  | none =>
    rw [hstored, Option.getD_none] at haccount
    exact absurd (by rw [AccountView.data, haccount]; rfl) hdata
  | some a =>
    rw [hstored, Option.getD_some] at haccount
    rw [haccount]

theorem Laid.record_mint {program : Bytes} (hl : Laid program mint created l)
    (hviews : l.Viewed accounts) {v : AccountView} (hv : v ∈ accounts) {r : Record}
    (hr : Record.decode v.data = .ok r) : r.mint = mint := by
  have hdata : v.data ≠ [] := by
    intro hnil
    have hlength := record_length hr
    rw [hnil] at hlength
    cases hlength
  exact hl.record v.key v.account r (hviews.stored hv hdata) hr

theorem Laid.token_created {program : Bytes} (hl : Laid program mint created l)
    (hviews : l.Viewed accounts) {v : AccountView} (hv : v ∈ accounts) (howner : v.owner = program)
    (hsize : TokenAccount.size ≤ v.data.length) : v.key ∈ created := by
  have hdata : v.data ≠ [] := by
    intro hnil
    rw [hnil] at hsize
    exact absurd hsize (by decide)
  exact hl.token v.key v.account (hviews.stored hv hdata) howner hsize

theorem Validated.aimed {calls : List Call}
    (h : Validated l.program.rules accounts data calls)
    (hl : Laid l.programs.token mint created l) (hviews : l.Viewed accounts) :
    ∀ c ∈ calls, ∃ n : Int, Aimed mint created c n ∧ 0 ≤ n := by
  cases h with
  | @splitTransfer payload v a b route validated allocated total parties =>
    obtain ⟨_, _, hlegs, -, ha, hb⟩ := Policy.allocate_int_legs allocated
    cases hlegs
    intro c hc
    rcases List.mem_cons.1 hc with rfl | hc
    · exact ⟨a, .transfer rfl rfl rfl, ha⟩
    · rw [List.mem_singleton.1 hc]
      exact ⟨b, .transfer rfl rfl rfl, hb⟩
  | @directBurn payload v route validated =>
    obtain ⟨recordView, accepted⟩ := DirectBurn.validate_outcome.1 validated
    obtain ⟨remaining, heq⟩ := accepted.accounts_eq
    have hrecord : recordView ∈ accounts := by
      rw [heq]
      simp
    have htoken : v.tokenAccount ∈ accounts := by
      rw [heq]
      simp
    have hmint : v.mint.key = mint := by
      rw [accepted.mintKey]
      exact hl.record_mint hviews hrecord accepted.trusted.decoded
    have hcreated : v.tokenAccount.key ∈ created :=
      hl.token_created hviews htoken accepted.owned accepted.size
    intro c hc
    rw [List.mem_singleton.1 hc]
    exact ⟨_, .tokenBurn rfl rfl rfl hcreated hmint, by omega⟩
  | @organizationBurn payload v route validated =>
    obtain ⟨recordView, accepted⟩ := OrganizationBurn.validate_outcome.1 validated
    have hrecord : recordView ∈ accounts := by
      rw [accepted.accounts_eq]
      simp
    have hmint : v.mint.key = mint := by
      rw [accepted.mintKey]
      exact hl.record_mint hviews hrecord accepted.trusted.decoded
    intro c hc
    rw [List.mem_singleton.1 hc]
    exact ⟨_, .compressedBurn rfl rfl rfl hmint, by omega⟩

theorem execute_posted {receipt : Receipt}
    (h : (l.execute accounts data).outcome = .ok receipt)
    (hl : Laid l.programs.token mint created l) (hviews : l.Viewed accounts) :
    Posted l.programs.token mint created l (l.execute accounts data).ledger receipt.calls := by
  obtain ⟨-, validated, t, m, settles, hledger⟩ := execute_receipt h
  have hopened : Laid l.programs.token mint created (l.opened accounts) := hl.of_accounts rfl
  have hposted := settles_posted settles (Validated.aimed validated hl hviews) hopened
  rw [hledger]
  exact ⟨hposted.laid.of_accounts rfl, hposted.even⟩

theorem execute_program {receipt : Receipt} (h : (l.execute accounts data).outcome = .ok receipt) :
    (l.execute accounts data).ledger.program = l.program := by
  obtain ⟨-, -, t, m, settles, hledger⟩ := execute_receipt h
  rw [hledger]
  exact (settles_frame settles).program

end Execute

end Ledger
end Settlement
