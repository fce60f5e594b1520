import Settlement.Proofs.Ledger.Authority
import Settlement.Proofs.Ledger.Layout

/-! What a burn does to a ledger. Validation has looked at the accounts as the caller shows them, and
the burn rewrites them as they are stored: a balance or a token account loses the amount, the mint
loses it from its supply, and nothing else changes. -/

namespace Settlement

open Outcome

/-- An account in which a count has fallen by so much. Of its data only the eight bytes of the count
have changed, and of the rest of it nothing. -/
structure Account.Reduced (count : Bytes → Outcome Nat) (offset n : Nat) (before after : Account) :
    Prop where
  fallen : ∃ held, count before.data = .ok held ∧ n ≤ held ∧ count after.data = .ok (held - n)
  data : Bytes.SameOutside offset 8 before.data after.data
  rest : after = { before with data := after.data }

def TokenAccount.amountOf (data : Bytes) : Outcome Nat := (decode data).map (·.amount)

namespace Ledger

/-- Every burn takes its amount out of the supply of the mint, if that is stored, and is one call. -/
structure Burned (l t : Ledger) (calls : List Call) (mint : Bytes) (n : Nat) : Prop where
  supply : Option.Rel (Account.Reduced Mint.supply Mint.supplyOffset n) (l.accounts.get? mint)
    (t.accounts.get? mint)
  called : ∃ call, calls = [call] ∧ t.callLog = l.callLog ++ [call]

structure BurnedCompressed (l t : Ledger) (calls : List Call) (mint organization : Bytes)
    (n : Nat) : Prop extends Burned l t calls mint n where
  taken : (l.compressedBalance organization).sub (.int n) = .ok (t.compressedBalance organization)
  covered : ∀ b, (l.compressedBalance organization).integer? = some b →
    n ≤ b ∧ t.compressedBalance organization = .int (b - n)
  balances : ∀ key, key ≠ organization → t.compressed.get? key = l.compressed.get? key
  accounts : ∀ key, key ≠ mint → t.accounts.get? key = l.accounts.get? key

structure BurnedTokens (l t : Ledger) (calls : List Call) (mint token : Bytes) (n : Nat) : Prop
    extends Burned l t calls mint n where
  taken : ∃ before after, l.accounts.get? token = some before ∧
    t.accounts.get? token = some after ∧
    Account.Reduced TokenAccount.amountOf TokenAccount.amountOffset n before after
  balances : t.compressed = l.compressed
  accounts : ∀ key, key ≠ mint → key ≠ token → t.accounts.get? key = l.accounts.get? key

section Changes

variable {c : Call} {n : Nat} {l t : Ledger}

theorem reduceSupply_reduced (hn : c.amount = .int n) {mint : Bytes}
    (h : reduceSupply c mint l = .ok t) :
    Option.Rel (Account.Reduced Mint.supply Mint.supplyOffset n) (l.accounts.get? mint)
      (t.accounts.get? mint) := by
  rw [reduceSupply_int hn] at h
  cases ha : l.accounts.get? mint with
  | none =>
    simp only [adjustSupply, ha] at h
    cases h
    rw [ha]
    exact .none
  | some a =>
    obtain ⟨supply, data, hsupply, hdata, rfl⟩ := adjustSupply_int h ha
    have hstored : (l.setAccount mint { a with data := data }).accounts.get? mint =
        some { a with data := data } := Store.get?_set_self _ _ _
    obtain ⟨⟨hpos, -⟩, -⟩ := Mint.withSupply_ok.1 hdata
    obtain ⟨-, hleft⟩ := Mint.supply_withSupply hdata
    have hsub : ((supply : Int) + -n).toNat = supply - n := by omega
    rw [hsub] at hleft
    rw [hstored]
    exact .some ⟨⟨supply, hsupply, by omega, hleft⟩, Mint.withSupply_sameOutside hdata, rfl⟩

theorem debitToken_reduced (hn : c.amount = .int n) {key mint owner : Bytes}
    (h : debitToken c key mint owner l = .ok t) :
    ∃ before after, l.accounts.get? key = some before ∧ t.accounts.get? key = some after ∧
      Account.Reduced TokenAccount.amountOf TokenAccount.amountOffset n before after := by
  obtain ⟨a, token, data, ha, htoken, -, -, hcovered, hdata, rfl⟩ := debitToken_ok hn h
  obtain ⟨-, hleft⟩ := TokenAccount.decode_withAmount htoken hdata
  have hsub : ((token.amount : Int) - n).toNat = token.amount - n := by omega
  rw [hsub] at hleft
  have hheld : TokenAccount.amountOf a.data = .ok token.amount := by
    rw [TokenAccount.amountOf, htoken]
    rfl
  have hafter : TokenAccount.amountOf data = .ok (token.amount - n) := by
    rw [TokenAccount.amountOf, hleft]
    rfl
  exact ⟨a, { a with data := data }, ha, Store.get?_set_self _ _ _,
    ⟨⟨_, hheld, by omega, hafter⟩, TokenAccount.withAmount_sameOutside htoken hdata, rfl⟩⟩

end Changes

section Calls

variable {caller : Bytes} {c : Call} {n : Nat} {l t : Ledger}

theorem compressedBurn_burned (hn : c.amount = .int n) {source mint : Bytes}
    (hc : changes c = .ok [debitCompressed c source, reduceSupply c mint])
    (h : Invoked caller c l (.ok (), t)) : BurnedCompressed l t [c] mint source n := by
  obtain ⟨s, u, hdebit, hreduce, haccounts, hcompressed⟩ := invoked_pair hc h
  obtain ⟨hless, rest, hrest, rfl⟩ := debitCompressed_ok.1 hdebit
  obtain ⟨hkept, hothers⟩ := reduceSupply_effect hn hreduce
  have hafter : t.compressedBalance source = rest := by
    rw [compressedBalance, hcompressed, hkept]
    exact (compressedBalance_setCompressed l.counted source source rest).trans (if_pos rfl)
  have hbefore : l.counted.compressedBalance source = l.compressedBalance source := rfl
  rw [hn, hbefore] at hrest hless
  refine ⟨⟨?_, c, rfl, h.frame_of_ok.callLog⟩, ?_, ?_, ?_, ?_⟩
  · have hsupply := reduceSupply_reduced hn hreduce
    rw [haccounts]
    exact hsupply
  · rw [hafter]
    exact hrest
  · intro b hb
    rw [Json.Value.less_of_integer? hb] at hless
    rw [Json.Value.sub_of_integer? hb] at hrest
    exact ⟨by simpa using hless, hafter.trans (Except.ok.inj hrest).symm⟩
  · intro key hkey
    rw [hcompressed, hkept]
    exact Store.get?_set_of_ne hkey rest
  · intro key hkey
    rw [haccounts, hothers key hkey]
    rfl

theorem tokenBurn_burned (hn : c.amount = .int n) {token mint owner : Bytes}
    (hne : token ≠ mint) (hc : changes c = .ok [debitToken c token mint owner, reduceSupply c mint])
    (h : Invoked caller c l (.ok (), t)) : BurnedTokens l t [c] mint token n := by
  obtain ⟨s, u, hdebit, hreduce, haccounts, -⟩ := invoked_pair hc h
  obtain ⟨-, hothers⟩ := reduceSupply_effect hn hreduce
  obtain ⟨-, hkept, -⟩ := debitToken_effect hn hdebit
  obtain ⟨before, after, hbefore, hafter, hreduced⟩ := debitToken_reduced hn hdebit
  obtain ⟨hbalances, hrest, -⟩ := tokenBurn_effect hn hc h
  refine ⟨⟨?_, c, rfl, h.frame_of_ok.callLog⟩, ?_, hbalances, fun key hmint htoken =>
    hrest key htoken hmint⟩
  · -- The debit has left the mint as it was stored, so the supply falls from there.
    have hsupply := reduceSupply_reduced hn hreduce
    rw [hkept mint hne.symm] at hsupply
    rw [haccounts]
    exact hsupply
  · refine ⟨before, after, hbefore, ?_, hreduced⟩
    rw [haccounts, hothers token hne]
    exact hafter

end Calls

section Transaction

variable {l : Ledger} {accounts : List AccountView} {data : Bytes} {receipt : Receipt}

/-- A burn that ends with a receipt has taken what its payload says from the holder that it names,
whatever the views of the accounts had to say about them. -/
theorem execute_burned (h : (l.execute accounts data).outcome = .ok receipt) :
    let t := (l.execute accounts data).ledger
    (∀ payload, Operation.route data = .ok (.organizationBurn, payload) →
      ∃ p mint organization, OrganizationBurn.decode payload = .ok p ∧
        accounts[2]? = some mint ∧ accounts[3]? = some organization ∧
        BurnedCompressed l t receipt.calls mint.key organization.key p.amount.toNat) ∧
    ∀ payload, Operation.route data = .ok (.directBurn, payload) →
      ∃ p mint token, DirectBurn.decode payload = .ok p ∧
        accounts[2]? = some mint ∧ accounts[3]? = some token ∧
        (token.key ≠ mint.key →
          BurnedTokens l t receipt.calls mint.key token.key p.amount.toNat) := by
  intro t
  obtain ⟨-, validated, u, m, settles, hledger⟩ := execute_receipt h
  have hafter : t = { u with metrics := m }.endTransaction := hledger
  rw [hafter]
  generalize receipt.calls = calls at validated settles
  constructor
  · intro payload route
    cases validated with
    | splitTransfer route' => cases route.symm.trans route'
    | directBurn route' => cases route.symm.trans route'
    | @organizationBurn payload v route' validated =>
      cases route.symm.trans route'
      obtain ⟨recordView, accepted⟩ := OrganizationBurn.validate_outcome.1 validated
      have hburned := compressedBurn_burned rfl rfl (invoked_of_settles_singleton settles)
      have hviews := accepted.accounts_eq
      refine ⟨v.payload, v.mint, v.organization, accepted.decoded, ?_, ?_, ?_⟩
      · rw [hviews]
        rfl
      · rw [hviews]
        rfl
      · exact ⟨⟨hburned.supply, hburned.called⟩, hburned.taken, hburned.covered, hburned.balances,
          hburned.accounts⟩
  · intro payload route
    cases validated with
    | splitTransfer route' => cases route.symm.trans route'
    | organizationBurn route' => cases route.symm.trans route'
    | @directBurn payload v route' validated =>
      cases route.symm.trans route'
      obtain ⟨recordView, accepted⟩ := DirectBurn.validate_outcome.1 validated
      obtain ⟨remaining, hviews⟩ := accepted.accounts_eq
      refine ⟨v.payload, v.mint, v.tokenAccount, accepted.decoded, ?_, ?_, fun hne => ?_⟩
      · rw [hviews]
        rfl
      · rw [hviews]
        rfl
      · have hburned := tokenBurn_burned rfl hne rfl (invoked_of_settles_singleton settles)
        exact ⟨⟨hburned.supply, hburned.called⟩, hburned.taken, hburned.balances,
          hburned.accounts⟩

end Transaction

/-- The stored token account holds 70, and the views of the sample show 100. -/
def Sample.spent : Ledger :=
  (ledger 1000).setAccount (key 6)
    (held Config.tokenProgramAddress (TokenAccount.pack (key 4) (key 7) 70))

theorem sample_burn_receipts :
    ((Sample.ledger 1000).execute Sample.organizationBurnViews
        Sample.organizationBurn).outcome.toOption.isSome = true ∧
      (Sample.spent.execute Sample.directBurnViews
        Sample.directBurn).outcome.toOption.isSome = true := by
  decide +kernel

theorem sample_burn_payloads :
    Operation.route Sample.organizationBurn =
        .ok (.organizationBurn, Sample.organizationBurn.drop 8) ∧
      OrganizationBurn.decode (Sample.organizationBurn.drop 8) = .ok ⟨1, 40, "zupy:v1:a:b"⟩ ∧
      Operation.route Sample.directBurn = .ok (.directBurn, Sample.directBurn.drop 8) ∧
      DirectBurn.decode (Sample.directBurn.drop 8) = .ok ⟨40, "zupy:v1:a:b"⟩ := by
  decide +kernel

/-- Both burns take 40, each from its own holder. -/
theorem sample_burns_burned :
    (∃ receipt, ((Sample.ledger 1000).execute Sample.organizationBurnViews
        Sample.organizationBurn).outcome = .ok receipt ∧
      BurnedCompressed (Sample.ledger 1000) ((Sample.ledger 1000).execute
        Sample.organizationBurnViews Sample.organizationBurn).ledger receipt.calls (Sample.key 4)
        Sample.organizationKey 40) ∧
    ∃ receipt, (Sample.spent.execute Sample.directBurnViews Sample.directBurn).outcome =
        .ok receipt ∧
      BurnedTokens Sample.spent (Sample.spent.execute Sample.directBurnViews
        Sample.directBurn).ledger receipt.calls (Sample.key 4) (Sample.key 6) 40 := by
  obtain ⟨hcompressed, htokens⟩ := sample_burn_receipts
  obtain ⟨hroute, hdecode, hroute', hdecode'⟩ := sample_burn_payloads
  constructor
  · have hreceipt := eq_ok_of_isSome hcompressed ⟨.organizationBurn, [], 0, none⟩
    obtain ⟨p, mint, organization, hp, hmint, horganization, hburned⟩ :=
      (execute_burned hreceipt).1 _ hroute
    obtain rfl := Except.ok.inj (hdecode.symm.trans hp)
    cases hmint
    cases horganization
    exact ⟨_, hreceipt, hburned⟩
  · have hreceipt := eq_ok_of_isSome htokens ⟨.directBurn, [], 0, none⟩
    obtain ⟨p, mint, token, hp, hmint, htoken, hburned⟩ :=
      (execute_burned hreceipt).2 _ hroute'
    obtain rfl := Except.ok.inj (hdecode'.symm.trans hp)
    cases hmint
    cases htoken
    exact ⟨_, hreceipt, hburned (by decide)⟩

end Ledger
end Settlement
