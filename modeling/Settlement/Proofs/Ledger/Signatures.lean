import Settlement.Proofs.Ledger.Authority
import Settlement.Proofs.Ledger.Layout

/-! Whose signature a call needs. The place of a reference in the call decides whom it debits, and
the reference's own mark decides whether its key has to sign; the calls of an instruction mark the
reference that they debit. -/

namespace Settlement

open Outcome

/-- The reference that a call debits: the source of a compressed amount, or the owner of a token
account. -/
def Call.debited? (c : Call) : Option AccountMeta :=
  match c.kind with
  | .compressedTransfer | .compressedBurn => c.accounts[1]?
  | _ => c.accounts[2]?

namespace Ledger

/-- The key signs the transaction, or a lent capability derives it. -/
def Signed (l : Ledger) (caller : Bytes) (c : Call) (key : Bytes) : Prop :=
  key ∈ l.signers ∨ ∃ seeds ∈ c.signers, createAddress seeds caller = .ok key

/-- The amount of a stored token account of the owner has become smaller. -/
def Taken (l t : Ledger) (owner : Bytes) : Prop :=
  ∃ place before held after left,
    l.accounts.get? place = some before ∧ TokenAccount.decode before.data = .ok held ∧
    held.owner = owner ∧ t.accounts.get? place = some after ∧
    TokenAccount.decode after.data = .ok left ∧ left.amount < held.amount

/-- A token account that is stored at the place is still stored there, with the same amount. -/
def AmountKept (l t : Ledger) (place : Bytes) : Prop :=
  ∀ before held, l.accounts.get? place = some before →
    TokenAccount.decode before.data = .ok held → ∃ after left,
      t.accounts.get? place = some after ∧ TokenAccount.decode after.data = .ok left ∧
      left.amount = held.amount

variable {l s t : Ledger} {caller place key : Bytes} {c : Call} {n : Int}

theorem AmountKept.of_eq (h : t.accounts.get? place = l.accounts.get? place) :
    AmountKept l t place := by
  intro before held hbefore hheld
  exact ⟨before, held, h.trans hbefore, hheld, rfl⟩

theorem AmountKept.trans (h : AmountKept l s place) (h' : AmountKept s t place) :
    AmountKept l t place := by
  intro before held hbefore hheld
  obtain ⟨between, kept, hbetween, hkept, hamount⟩ := h before held hbefore hheld
  obtain ⟨after, left, hafter, hleft, hamount'⟩ := h' between kept hbetween hkept
  exact ⟨after, left, hafter, hleft, hamount'.trans hamount⟩

/-- A supply lies in bytes 36 to 43, an amount in bytes 64 to 71. -/
theorem amount_withSupply {data written : Bytes} {held : TokenAccount}
    (hheld : TokenAccount.decode data = .ok held) (h : Mint.withSupply data n = .ok written) :
    ∃ left, TokenAccount.decode written = .ok left ∧ left.amount = held.amount := by
  obtain ⟨-, hlong, rfl⟩ := Mint.withSupply_ok.1 h
  obtain ⟨hsize, htoken⟩ := guard_eq_ok.1 hheld
  have hoffset : Mint.supplyOffset = 36 := rfl
  have hwidth : (Bytes.ofNat 8 n.toNat).length = 8 := Bytes.length_ofNat 8 _
  have hlength : (Bytes.splice Mint.supplyOffset (Bytes.ofNat 8 n.toNat) data).length =
      data.length := Bytes.length_splice (by omega)
  have hamount : Bytes.slice 64 8 (Bytes.splice Mint.supplyOffset (Bytes.ofNat 8 n.toNat) data) =
      Bytes.slice 64 8 data := Bytes.slice_splice_apart (by omega) (by omega)
  refine ⟨_, if_neg (by omega), ?_⟩
  rw [hamount, ← Except.ok.inj htoken]

theorem reduceSupply_amountKept (hn : c.amount = .int n) {mint : Bytes}
    (h : reduceSupply c mint l = .ok t) (place : Bytes) : AmountKept l t place := by
  rw [reduceSupply_int hn] at h
  by_cases hplace : place = mint
  · intro before held hbefore hheld
    rw [hplace] at hbefore
    obtain ⟨supply, data, -, hdata, rfl⟩ := adjustSupply_int h hbefore
    obtain ⟨left, hleft, hamount⟩ := amount_withSupply hheld hdata
    have hstored : (l.setAccount mint { before with data := data }).accounts.get? mint =
        some { before with data := data } := Store.get?_set_self _ _ _
    rw [hplace]
    exact ⟨_, left, hstored, hleft, hamount⟩
  · rcases adjustSupply_ok h with rfl | ⟨a, data, -, rfl⟩
    · exact .of_eq rfl
    · exact .of_eq (Store.get?_set_of_ne hplace _)

theorem not_taken {owner : Bytes}
    (h : ∀ place before held, l.accounts.get? place = some before →
      TokenAccount.decode before.data = .ok held → held.owner = owner → AmountKept l t place) :
    ¬ Taken l t owner := by
  rintro ⟨place, before, held, after, left, hbefore, hheld, howner, hafter, hleft, hlt⟩
  obtain ⟨after', left', hafter', hleft', hamount⟩ :=
    h place before held hbefore hheld howner before held hbefore hheld
  rw [hafter] at hafter'
  cases hafter'
  rw [hleft] at hleft'
  cases hleft'
  omega

/-! What a call that succeeds has debited. -/

theorem changes_debited {cs : List (Ledger → Outcome Ledger)} (h : changes c = .ok cs) :
    ∃ ref ∈ c.accounts, c.debited? = some ref ∧
      ((∃ destination, cs = [debitCompressed c ref.key, creditCompressed c destination]) ∨
        (∃ mint, cs = [debitCompressed c ref.key, reduceSupply c mint]) ∨
        ∃ token mint, cs = [debitToken c token mint ref.key, reduceSupply c mint]) := by
  unfold changes at h
  split at h
  · next payer source destination system hkind haccounts =>
    cases h
    refine ⟨source, by simp [haccounts], by simp [Call.debited?, hkind, haccounts], ?_⟩
    exact .inl ⟨destination.key, rfl⟩
  · next payer source mint system hkind haccounts =>
    cases h
    refine ⟨source, by simp [haccounts], by simp [Call.debited?, hkind, haccounts], ?_⟩
    exact .inr (.inl ⟨mint.key, rfl⟩)
  · cases h
  · cases h
  · next token mint owner haccounts htransfer hburn =>
    cases h
    refine ⟨owner, by simp [haccounts], ?_, .inr (.inr ⟨token.key, mint.key, rfl⟩)⟩
    cases hkind : c.kind <;> simp_all [Call.debited?]
  · cases h

theorem signed_of_authorize (h : l.authorize caller c = .ok ()) {ref : AccountMeta}
    (href : ref ∈ c.accounts) (hsigner : ref.signer = true) : Signed l caller c ref.key := by
  simp only [authorize, refuse, error_bind, guard_eq_ok, bind_eq_ok] at h
  obtain ⟨-, signed, hsigned, hall, -⟩ := h
  have hmem : ref.key ∈ signed := by
    by_cases hin : ref.key ∈ signed
    · exact hin
    · refine absurd (List.any_eq_true.2 ⟨ref, href, ?_⟩) hall
      simp [hsigner, hin]
  simp only [signedKeys] at hsigned
  split at hsigned
  · next lent hlent =>
    cases hsigned
    rcases List.mem_append.1 hmem with hin | hin
    · exact .inl hin
    · obtain ⟨seeds, hseeds, hkey⟩ := (mem_mapM_ok hlent).1 hin
      exact .inr ⟨seeds, hseeds, hkey⟩
  · cases hsigned

theorem authorize_of_invoke (h : l.invoke caller c = (.ok (), t)) :
    l.authorize caller c = .ok () := by
  have hinvoked := invoke_invoked caller c l
  rw [h] at hinvoked
  cases hinvoked with
  | applied hauth => exact hauth

/-- Value that a call has taken away from a key. Balances that are no whole numbers count as
taken from if anything but an amount was added to them. -/
inductive Drained (l t : Ledger) (key : Bytes) : Prop
  | lowered : Lowered l t key → Drained l t key
  | changed : ¬ Keeps l t key → Drained l t key
  | taken : Taken l t key → Drained l t key

theorem not_drained (hkeeps : Keeps l t key) (htaken : ¬ Taken l t key) : ¬ Drained l t key := by
  intro h
  cases h with
  | lowered h => exact hkeeps.not_lowered h
  | changed h => exact h hkeeps
  | taken h => exact htaken h

theorem not_taken_of_accounts (h : t.accounts = l.accounts) (owner : Bytes) : ¬ Taken l t owner :=
  not_taken fun place _ _ _ _ _ => .of_eq (by rw [h])

/-- A call drains nobody but the key of the reference that it debits. -/
theorem key_of_drained (hn : c.amount = .int n) (hpos : 0 ≤ n)
    (h : l.invoke caller c = (.ok (), t)) (hdrained : Drained l t key) :
    ∃ ref ∈ c.accounts, c.debited? = some ref ∧ ref.key = key := by
  have hinvoked := invoke_invoked caller c l
  rw [h] at hinvoked
  cases hchanges : changes c with
  | error e =>
    cases hinvoked with
    | applied _ hcs => cases hchanges.symm.trans hcs
  | ok cs =>
    obtain ⟨ref, href, hdebited, hcases⟩ := changes_debited hchanges
    refine ⟨ref, href, hdebited, ?_⟩
    by_cases hkey : ref.key = key
    · exact hkey
    refine absurd hdrained ?_
    rcases hcases with ⟨destination, rfl⟩ | ⟨mint, rfl⟩ | ⟨token, mint, rfl⟩
    · obtain ⟨haccounts, hkeeps⟩ := transfer_effect hn hpos hchanges hinvoked
      exact not_drained (hkeeps key (Ne.symm hkey)) (not_taken_of_accounts haccounts key)
    · obtain ⟨-, hkeeps⟩ := compressedBurn_effect hn hchanges hinvoked
      obtain ⟨s, u, hdebit, hreduce, haccounts, -⟩ := invoked_pair hchanges hinvoked
      obtain ⟨hs, -⟩ := debitCompressed_effect hdebit
      refine not_drained (hkeeps key (Ne.symm hkey)) (not_taken fun place _ _ _ _ _ => ?_)
      have hfirst : AmountKept l s place := .of_eq (by rw [hs]; rfl)
      have hlast : AmountKept u t place := .of_eq (by rw [haccounts])
      exact (hfirst.trans (reduceSupply_amountKept hn hreduce place)).trans hlast
    · obtain ⟨hcompressed, -, stored, held, hstored, hheld, howner⟩ :=
        tokenBurn_effect hn hchanges hinvoked
      obtain ⟨s, u, hdebit, hreduce, haccounts, -⟩ := invoked_pair hchanges hinvoked
      obtain ⟨-, hs, -⟩ := debitToken_effect hn hdebit
      have hkeeps : Keeps l t key := .of_eq (by rw [compressedBalance, hcompressed]; rfl)
      refine not_drained hkeeps (not_taken fun place before held' hbefore hheld' howner' => ?_)
      have hplace : place ≠ token := by
        rintro rfl
        rw [hstored] at hbefore
        cases hbefore
        rw [hheld] at hheld'
        cases hheld'
        exact hkey (howner.symm.trans howner')
      have hfirst : AmountKept l s place := .of_eq (hs place hplace)
      have hlast : AmountKept u t place := .of_eq (by rw [haccounts])
      exact (hfirst.trans (reduceSupply_amountKept hn hreduce place)).trans hlast

/-- A key that a call drains is that of the reference it debits. If that reference is marked as a
signer, as it is in every call of an instruction, the key has signed. -/
theorem drained_signed :
    (∀ (l t : Ledger) (caller : Bytes) (c : Call) (n : Int) (key : Bytes),
      c.amount = .int n → 0 ≤ n → l.invoke caller c = (.ok (), t) → Drained l t key →
      ∃ ref, c.debited? = some ref ∧ ref.key = key ∧
        (ref.signer = true → Signed l caller c key)) ∧
    ∀ (rules : Rules) (accounts : List AccountView) (data : Bytes) (calls : List Call),
      Validated rules accounts data calls → ∀ c ∈ calls,
        ∃ ref, c.debited? = some ref ∧ ref.signer = true := by
  constructor
  · intro l t caller c n key hn hpos h hdrained
    obtain ⟨ref, href, hdebited, hkey⟩ := key_of_drained hn hpos h hdrained
    refine ⟨ref, hdebited, hkey, fun hsigner => ?_⟩
    rw [← hkey]
    exact signed_of_authorize (authorize_of_invoke h) href hsigner
  · intro rules accounts data calls h c hc
    cases h with
    | splitTransfer =>
      rcases List.mem_cons.1 hc with rfl | hc
      · exact ⟨_, rfl, rfl⟩
      · rw [List.mem_singleton.1 hc]
        exact ⟨_, rfl, rfl⟩
    | directBurn =>
      rw [List.mem_singleton.1 hc]
      exact ⟨_, rfl, rfl⟩
    | organizationBurn =>
      rw [List.mem_singleton.1 hc]
      exact ⟨_, rfl, rfl⟩

/-- A transfer of 40 from the organization, whose reference may or may not be marked. -/
def Sample.withdrawal (source : AccountMeta) (signers : List Seeds) : Call where
  program := Config.compressedTokenProgramAddress
  kind := .compressedTransfer
  accounts := [.reading (Sample.key 5), source, .reading (Sample.key 8), .reading systemAddress]
  amount := .int 40
  signers := signers
  remaining := []

def Sample.lentWithdrawal : Call :=
  Sample.withdrawal (.signing Sample.organizationKey) [(Identity.organization 1).seeds 255]

def Sample.unmarkedWithdrawal : Call :=
  Sample.withdrawal (.reading Sample.organizationKey) []

theorem sample_withdrawals (c : Call)
    (hc : c ∈ [Sample.lentWithdrawal, Sample.unmarkedWithdrawal]) :
    ((Sample.ledger 1000).invoke Config.programAddress c).1 = .ok () ∧
      ((Sample.ledger 1000).invoke Config.programAddress c).2.compressedBalance
        Sample.organizationKey = .int 60 := by
  revert c
  decide +kernel

theorem withdrawal_lowered {t : Ledger}
    (hafter : t.compressedBalance Sample.organizationKey = .int 60) :
    Lowered (Sample.ledger 1000) t Sample.organizationKey :=
  ⟨100, 60, rfl, by rw [hafter]; rfl, by omega⟩

/-- The organization has lent its capability for the marked withdrawal. The calls of the sample
burn are marked too. -/
theorem lent_withdrawal_signed :
    Signed (Sample.ledger 1000) Config.programAddress Sample.lentWithdrawal
        Sample.organizationKey ∧
      ∃ calls, Validated Sample.program.rules Sample.organizationBurnViews
        Sample.organizationBurn calls ∧
        ∀ c ∈ calls, ∃ ref, c.debited? = some ref ∧ ref.signer = true := by
  constructor
  · obtain ⟨hok, hafter⟩ := sample_withdrawals Sample.lentWithdrawal (by simp)
    have hinvoke : (Sample.ledger 1000).invoke Config.programAddress Sample.lentWithdrawal =
        (.ok (), ((Sample.ledger 1000).invoke Config.programAddress Sample.lentWithdrawal).2) := by
      rw [← hok]
    obtain ⟨ref, hdebited, -, hsigned⟩ := drained_signed.1 (Sample.ledger 1000) _
      Config.programAddress Sample.lentWithdrawal 40 Sample.organizationKey rfl (by omega) hinvoke
      (.lowered (withdrawal_lowered hafter))
    cases hdebited
    exact hsigned rfl
  · obtain ⟨hsome, -⟩ := sample_burn_lowers
    have houtcome := eq_ok_of_isSome hsome ⟨.splitTransfer, [], .int 0, none⟩
    obtain ⟨-, validated, -⟩ := execute_receipt houtcome
    exact ⟨_, validated, drained_signed.2 _ _ _ _ validated⟩

/-- Nobody has signed for the unmarked withdrawal, and the organization pays it. -/
theorem unmarked_withdrawal_unsigned :
    ¬ ∀ (l t : Ledger) (caller : Bytes) (c : Call) (n : Int) (key : Bytes), c.amount = .int n →
      0 ≤ n → l.invoke caller c = (.ok (), t) → Lowered l t key → Signed l caller c key := by
  intro hall
  obtain ⟨hok, hafter⟩ := sample_withdrawals Sample.unmarkedWithdrawal (by simp)
  have hinvoke : (Sample.ledger 1000).invoke Config.programAddress Sample.unmarkedWithdrawal =
      (.ok (), ((Sample.ledger 1000).invoke Config.programAddress Sample.unmarkedWithdrawal).2) := by
    rw [← hok]
  rcases hall (Sample.ledger 1000) _ Config.programAddress Sample.unmarkedWithdrawal 40
    Sample.organizationKey rfl (by omega) hinvoke (withdrawal_lowered hafter) with h | h
  · cases h
  · obtain ⟨seeds, hseeds, -⟩ := h
    cases hseeds

end Ledger
end Settlement
