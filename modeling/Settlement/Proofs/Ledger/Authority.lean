import Settlement.Proofs.Ledger.Transaction

/-! Only authorized value moves. A balance is lowered only for the user of a split transfer or the
organization of a burn, and only if the authority of the record signs; an account is written only if
it is the token account or the mint of a burn; and tokens are burned only with a signature of the
owner that the stored token account names. -/

namespace Settlement.Ledger

/-! The statement. -/

/-- A signer stands first whose key is an authority of a record that is handed over and trusted. -/
structure Approved (rules : Rules) (accounts : List AccountView) (authority : Record → Bytes)
    (record : Record) : Prop where
  signed : ∃ view, accounts.head? = some view ∧ view.signer = true ∧ view.key = authority record
  trusted : ∃ view ∈ accounts, Validation.Trusted rules view record

/-- The identity that an instruction debits: the user at the bump of the payload, or the
organization at its canonical address. -/
inductive Debited (program : Bytes) (data : Bytes) (key : Bytes) : Prop
  | user {payload : Bytes} {p : SplitTransfer} :
      Operation.route data = .ok (.splitTransfer, payload) → SplitTransfer.decode payload = .ok p →
      (Identity.user p.userId).address p.userBump program = .ok key → Debited program data key
  | organization {payload : Bytes} {p : OrganizationBurn} {bump : UInt8} :
      Operation.route data = .ok (.organizationBurn, payload) →
      OrganizationBurn.decode payload = .ok p →
      (Identity.organization p.orgId).find program = .ok (key, bump) → Debited program data key

/-- The accounts that an instruction writes: the mint of a burn, and the token account of a direct
one. -/
inductive Written (accounts : List AccountView) (data : Bytes) (key : Bytes) : Prop
  | directBurn {payload : Bytes} {view : AccountView} :
      Operation.route data = .ok (.directBurn, payload) →
      accounts[2]? = some view ∨ accounts[3]? = some view → view.key = key →
      Written accounts data key
  | organizationBurn {payload : Bytes} {view : AccountView} :
      Operation.route data = .ok (.organizationBurn, payload) → accounts[2]? = some view →
      view.key = key → Written accounts data key

/-- Whole amounts, none of them negative, have been added to a balance of any kind. -/
inductive Credited (before : Json.Value) : Json.Value → Prop
  | refl : Credited before before
  | add {after sum : Json.Value} {n : Int} :
      Credited before after → 0 ≤ n → after.add (.int n) = .ok sum → Credited before sum

def Lowered (l t : Ledger) (key : Bytes) : Prop :=
  ∃ before after, (l.compressedBalance key).integer? = some before ∧
    (t.compressedBalance key).integer? = some after ∧ after < before

def OwnerSigned (l : Ledger) (accounts : List AccountView) : Prop :=
  ∃ view stored token, accounts[3]? = some view ∧ l.accounts.get? view.key = some stored ∧
    TokenAccount.decode stored.data = .ok token ∧
    ∃ signer ∈ accounts, signer.signer = true ∧ signer.key = token.owner

structure MayPay (l : Ledger) (accounts : List AccountView) (data key : Bytes) : Prop where
  identity : Debited l.program.address data key
  authority : ∃ record, Approved l.program.rules accounts (·.transferAuthority) record ∧
    record.paused = false

structure Authorized (l t : Ledger) (accounts : List AccountView) (data : Bytes) : Prop where
  lowered : ∀ key, Lowered l t key → MayPay l accounts data key
  credited : ∀ key, ¬ MayPay l accounts data key →
    Credited (l.compressedBalance key) (t.compressedBalance key)
  written : ∀ key, t.accounts.get? key ≠ l.accounts.get? key → Written accounts data key
  burned : ∀ payload, Operation.route data = .ok (.directBurn, payload) →
    OwnerSigned l accounts ∧ ∃ record, Approved l.program.rules accounts (·.treasury) record ∧
      (l.program.rules.gatesDirectBurn = true → record.paused = false)

/-! What each kind of call moves. -/

def Keeps (l t : Ledger) (key : Bytes) : Prop :=
  Credited (l.compressedBalance key) (t.compressedBalance key)

theorem Keeps.of_eq {l t : Ledger} {key : Bytes}
    (h : t.compressedBalance key = l.compressedBalance key) : Keeps l t key := by
  rw [Keeps, h]
  exact .refl

theorem Credited.trans {u v w : Json.Value} (h : Credited u v) (h' : Credited v w) :
    Credited u w := by
  induction h' with
  | refl => exact h
  | add _ hn hadd ih => exact .add ih hn hadd

theorem Credited.integer? {u v : Json.Value} (h : Credited u v) {m : Int}
    (hm : u.integer? = some m) : ∃ n, v.integer? = some n ∧ m ≤ n := by
  induction h with
  | refl => exact ⟨m, hm, Int.le_refl m⟩
  | @add after sum n _ hn hadd ih =>
    obtain ⟨k, hk, hle⟩ := ih
    rw [Json.Value.add_of_integer? hk] at hadd
    cases hadd
    exact ⟨k + n, rfl, by omega⟩

theorem Keeps.not_lowered {l t : Ledger} {key : Bytes} (h : Keeps l t key) : ¬ Lowered l t key := by
  rintro ⟨before, after, hbefore, hafter, hlt⟩
  obtain ⟨after', hafter', hle⟩ := Credited.integer? h hbefore
  rw [hafter] at hafter'
  cases hafter'
  omega

theorem Authorized.of_keeps {l t : Ledger} {accounts : List AccountView} {data owner : Bytes}
    (hkeeps : ∀ key, key ≠ owner → Keeps l t key) (hpays : MayPay l accounts data owner)
    (written : ∀ key, t.accounts.get? key ≠ l.accounts.get? key → Written accounts data key)
    (burned : ∀ payload, Operation.route data = .ok (.directBurn, payload) →
      OwnerSigned l accounts ∧ ∃ record, Approved l.program.rules accounts (·.treasury) record ∧
        (l.program.rules.gatesDirectBurn = true → record.paused = false)) :
    Authorized l t accounts data where
  lowered := by
    intro key hlowered
    by_cases hkey : key = owner
    · rw [hkey]
      exact hpays
    · exact absurd hlowered (hkeeps key hkey).not_lowered
  credited := by
    intro key hnot
    apply hkeeps key
    intro hkey
    rw [hkey] at hnot
    exact hnot hpays
  written := written
  burned := burned

section Calls

variable {caller : Bytes} {c : Call} {n : Int} {l t : Ledger}

theorem debitCompressed_effect {owner : Bytes} {s : Ledger}
    (h : debitCompressed c owner l = .ok s) :
    s.accounts = l.accounts ∧ ∀ key, key ≠ owner → Keeps l s key := by
  obtain ⟨-, rest, -, rfl⟩ := debitCompressed_ok.1 h
  refine ⟨rfl, fun key hkey => .of_eq ?_⟩
  rw [compressedBalance_setCompressed, if_neg hkey]

theorem creditCompressed_effect (hn : c.amount = .int n) (hpos : 0 ≤ n) {owner : Bytes} {s : Ledger}
    (h : creditCompressed c owner l = .ok s) :
    s.accounts = l.accounts ∧ ∀ key, Keeps l s key := by
  obtain ⟨sum, hsum, rfl⟩ := creditCompressed_ok.1 h
  refine ⟨rfl, fun key => ?_⟩
  by_cases hkey : key = owner
  · rw [hn] at hsum
    rw [Keeps, compressedBalance_setCompressed, if_pos hkey, hkey]
    exact .add .refl hpos hsum
  · apply Keeps.of_eq
    rw [compressedBalance_setCompressed, if_neg hkey]

theorem reduceSupply_effect (hn : c.amount = .int n) {mint : Bytes} {s : Ledger}
    (h : reduceSupply c mint l = .ok s) :
    s.compressed = l.compressed ∧
      ∀ key, key ≠ mint → s.accounts.get? key = l.accounts.get? key := by
  rw [reduceSupply_int hn] at h
  rcases adjustSupply_ok h with rfl | ⟨a, bs, -, rfl⟩
  · exact ⟨rfl, fun _ _ => rfl⟩
  · exact ⟨rfl, fun key hkey => Store.get?_set_of_ne hkey _⟩

theorem debitToken_effect (hn : c.amount = .int n) {token mint owner : Bytes} {s : Ledger}
    (h : debitToken c token mint owner l = .ok s) :
    s.compressed = l.compressed ∧
      (∀ key, key ≠ token → s.accounts.get? key = l.accounts.get? key) ∧
      ∃ stored held, l.accounts.get? token = some stored ∧
        TokenAccount.decode stored.data = .ok held ∧ held.owner = owner := by
  obtain ⟨a, held, bs, ha, hheld, howner, -, -, -, rfl⟩ := debitToken_ok hn h
  exact ⟨rfl, fun key hkey => Store.get?_set_of_ne hkey _, a, held, ha, hheld, howner⟩

theorem invoked_pair {first second : Ledger → Outcome Ledger}
    (hc : changes c = .ok [first, second]) (h : Invoked caller c l (.ok (), t)) :
    ∃ s u, first l.counted = .ok s ∧ second s = .ok u ∧ t.accounts = u.accounts ∧
      t.compressed = u.compressed := by
  cases h with
  | applied _ hcs hrun =>
    rw [hc] at hcs
    cases hcs
    cases hfirst : first l.counted with
    | error e =>
      simp only [inOrder, hfirst] at hrun
      cases hrun
    | ok s =>
      cases hsecond : second s with
      | error e =>
        simp only [inOrder, hfirst, hsecond] at hrun
        cases hrun
      | ok u =>
        simp only [inOrder, hfirst, hsecond] at hrun
        cases hrun
        exact ⟨s, _, rfl, hsecond, rfl, rfl⟩

theorem transfer_effect (hn : c.amount = .int n) (hpos : 0 ≤ n) {source destination : Bytes}
    (hc : changes c = .ok [debitCompressed c source, creditCompressed c destination])
    (h : Invoked caller c l (.ok (), t)) :
    t.accounts = l.accounts ∧ ∀ key, key ≠ source → Keeps l t key := by
  obtain ⟨s, u, hdebit, hcredit, haccounts, hcompressed⟩ := invoked_pair hc h
  obtain ⟨hs, hkeeps⟩ := debitCompressed_effect hdebit
  obtain ⟨hu, hgains⟩ := creditCompressed_effect hn hpos hcredit
  refine ⟨haccounts.trans (hu.trans hs), fun key hkey => ?_⟩
  have hl : Keeps l s key := hkeeps key hkey
  have ht : Keeps u t key := .of_eq (by simp only [compressedBalance, hcompressed])
  exact (hl.trans (hgains key)).trans ht

theorem compressedBurn_effect (hn : c.amount = .int n) {source mint : Bytes}
    (hc : changes c = .ok [debitCompressed c source, reduceSupply c mint])
    (h : Invoked caller c l (.ok (), t)) :
    (∀ key, key ≠ mint → t.accounts.get? key = l.accounts.get? key) ∧
      ∀ key, key ≠ source → Keeps l t key := by
  obtain ⟨s, u, hdebit, hreduce, haccounts, hcompressed⟩ := invoked_pair hc h
  obtain ⟨hs, hkeeps⟩ := debitCompressed_effect hdebit
  obtain ⟨hu, hsupply⟩ := reduceSupply_effect hn hreduce
  refine ⟨fun key hkey => ?_, fun key hkey => ?_⟩
  · rw [haccounts, hsupply key hkey, hs]
    rfl
  · have hl : Keeps l s key := hkeeps key hkey
    have ht : Keeps s t key := .of_eq (by simp only [compressedBalance, hcompressed, hu])
    exact hl.trans ht

theorem tokenBurn_effect (hn : c.amount = .int n) {token mint owner : Bytes}
    (hc : changes c = .ok [debitToken c token mint owner, reduceSupply c mint])
    (h : Invoked caller c l (.ok (), t)) :
    t.compressed = l.compressed ∧
      (∀ key, key ≠ token → key ≠ mint → t.accounts.get? key = l.accounts.get? key) ∧
      ∃ stored held, l.accounts.get? token = some stored ∧
        TokenAccount.decode stored.data = .ok held ∧ held.owner = owner := by
  obtain ⟨s, u, hdebit, hreduce, haccounts, hcompressed⟩ := invoked_pair hc h
  obtain ⟨hs, htaken, howner⟩ := debitToken_effect hn hdebit
  obtain ⟨hu, hsupply⟩ := reduceSupply_effect hn hreduce
  refine ⟨hcompressed.trans (hu.trans hs), fun key htoken hmint => ?_, howner⟩
  rw [haccounts, hsupply key hmint, htaken key htoken]
  rfl

end Calls

theorem transfers_effect {caller source : Bytes} {cs : List Call} {l t : Ledger}
    (hcs : ∀ c ∈ cs, ∃ n destination, c.amount = .int n ∧ 0 ≤ n ∧
      changes c = .ok [debitCompressed c source, creditCompressed c destination])
    (settles : host.Settles caller cs l t) :
    t.accounts = l.accounts ∧ ∀ key, key ≠ source → Keeps l t key := by
  induction settles with
  | nil => exact ⟨rfl, fun _ _ => .of_eq rfl⟩
  | @cons c cs l s t first rest ih =>
    obtain ⟨n, destination, hn, hpos, hc⟩ := hcs c List.mem_cons_self
    obtain ⟨haccounts, hkeeps⟩ := transfer_effect hn hpos hc (invoked_of_host first)
    obtain ⟨haccounts', hkeeps'⟩ := ih fun d hd => hcs d (List.mem_cons_of_mem _ hd)
    exact ⟨haccounts'.trans haccounts, fun key hkey => (hkeeps key hkey).trans (hkeeps' key hkey)⟩

theorem invoked_of_settles_singleton {caller : Bytes} {c : Call} {l t : Ledger}
    (settles : host.Settles caller [c] l t) : Invoked caller c l (.ok (), t) := by
  obtain ⟨s, first, rest⟩ := Host.settles_cons_iff.1 settles
  cases Host.settles_nil_iff.1 rest
  exact invoked_of_host first

/-! What validation has checked of the record and its authority. -/

section Approved

variable {rules : Rules} {accounts : List AccountView} {payload : Bytes} {recordView : AccountView}

theorem approved_of_cons {authority : Record → Bytes} {record : Record} {view : AccountView}
    {rest : List AccountView} (hsigned : view.signer = true) (hkey : view.key = authority record)
    (trusted : Validation.Trusted rules recordView record) :
    Approved rules (view :: recordView :: rest) authority record where
  signed := ⟨view, rfl, hsigned, hkey⟩
  trusted := ⟨recordView, List.mem_cons_of_mem _ List.mem_cons_self, trusted⟩

theorem splitTransfer_approved {v : SplitTransfer.Valid}
    (h : SplitTransfer.Accepted rules accounts payload recordView v) :
    Approved rules accounts (·.transferAuthority) v.record := by
  rw [h.accounts_eq]
  exact approved_of_cons h.signed h.authorized h.trusted

theorem directBurn_approved {v : DirectBurn.Valid}
    (h : DirectBurn.Accepted rules accounts payload recordView v) :
    Approved rules accounts (·.treasury) v.record := by
  obtain ⟨remaining, haccounts⟩ := h.accounts_eq
  rw [haccounts]
  exact approved_of_cons h.signed h.authorized h.trusted

theorem organizationBurn_approved {v : OrganizationBurn.Valid}
    (h : OrganizationBurn.Accepted rules accounts payload recordView v) :
    Approved rules accounts (·.transferAuthority) v.record := by
  rw [h.accounts_eq]
  exact approved_of_cons h.signed h.authorized h.trusted

end Approved

/-! What a whole transaction moves, by its operation. -/

section Transaction

variable {l t : Ledger} {accounts : List AccountView} {data payload : Bytes}
  {recordView : AccountView}

theorem splitTransfer_authorized {v : SplitTransfer.Valid} {cs : List Call}
    (route : Operation.route data = .ok (.splitTransfer, payload))
    (accepted : SplitTransfer.Accepted l.program.rules accounts payload recordView v)
    (hcs : ∀ c ∈ cs, ∃ n destination, c.amount = .int n ∧ 0 ≤ n ∧
      changes c = .ok [debitCompressed c v.user.key, creditCompressed c destination])
    (settles : host.Settles l.program.address cs (l.opened accounts) t) :
    Authorized l t accounts data := by
  obtain ⟨haccounts, hkeeps⟩ := transfers_effect hcs settles
  have hpays : MayPay l accounts data v.user.key :=
    ⟨.user route accepted.decoded accepted.user, v.record, splitTransfer_approved accepted,
      accepted.unpaused⟩
  refine .of_keeps hkeeps hpays ?_ ?_
  · intro key hne
    rw [haccounts] at hne
    exact absurd rfl hne
  · intro payload' route'
    rw [route] at route'
    cases route'

theorem directBurn_authorized {v : DirectBurn.Valid} {c : Call} {n : Int}
    (route : Operation.route data = .ok (.directBurn, payload))
    (accepted : DirectBurn.Accepted l.program.rules accounts payload recordView v)
    (hn : c.amount = .int n)
    (hc : changes c = .ok [debitToken c v.tokenAccount.key v.mint.key v.tokenAccountOwner.key,
      reduceSupply c v.mint.key])
    (settles : host.Settles l.program.address [c] (l.opened accounts) t) :
    Authorized l t accounts data := by
  obtain ⟨hcompressed, haccounts, stored, held, hstored, hheld, howner⟩ :=
    tokenBurn_effect hn hc (invoked_of_settles_singleton settles)
  obtain ⟨remaining, hviews⟩ := accepted.accounts_eq
  have hmint : accounts[2]? = some v.mint := by
    rw [hviews]
    rfl
  have htoken : accounts[3]? = some v.tokenAccount := by
    rw [hviews]
    rfl
  have hsigner : v.tokenAccountOwner ∈ accounts := by
    rw [hviews]
    simp only [List.mem_cons, true_or, or_true]
  have hkeeps : ∀ key, Keeps l t key := by
    intro key
    apply Keeps.of_eq
    simp only [compressedBalance, hcompressed]
    rfl
  refine ⟨fun key h => absurd h (hkeeps key).not_lowered, fun key _ => hkeeps key, ?_, ?_⟩
  · intro key hne
    by_cases hkey : key = v.mint.key
    · exact .directBurn route (.inl hmint) hkey.symm
    · by_cases hkey' : key = v.tokenAccount.key
      · exact .directBurn route (.inr htoken) hkey'.symm
      · exact absurd (haccounts key hkey' hkey) hne
  · intro _ _
    refine ⟨⟨v.tokenAccount, stored, held, htoken, hstored, hheld, v.tokenAccountOwner, hsigner,
      accepted.ownerSigned, howner.symm⟩, v.record, directBurn_approved accepted, ?_⟩
    intro hgated
    have hunpaused := accepted.unpaused
    rw [hgated, Bool.true_and] at hunpaused
    exact hunpaused

theorem organizationBurn_authorized {v : OrganizationBurn.Valid} {c : Call} {n : Int}
    (route : Operation.route data = .ok (.organizationBurn, payload))
    (accepted : OrganizationBurn.Accepted l.program.rules accounts payload recordView v)
    (hn : c.amount = .int n)
    (hc : changes c = .ok [debitCompressed c v.organization.key, reduceSupply c v.mint.key])
    (settles : host.Settles l.program.address [c] (l.opened accounts) t) :
    Authorized l t accounts data := by
  obtain ⟨haccounts, hkeeps⟩ := compressedBurn_effect hn hc (invoked_of_settles_singleton settles)
  have hmint : accounts[2]? = some v.mint := by
    rw [accepted.accounts_eq]
    rfl
  obtain ⟨bump, hfind, -⟩ := accepted.organization
  have hpays : MayPay l accounts data v.organization.key :=
    ⟨.organization route accepted.decoded hfind, v.record, organizationBurn_approved accepted,
      accepted.unpaused⟩
  refine .of_keeps hkeeps hpays ?_ ?_
  · intro key hne
    by_cases hkey : key = v.mint.key
    · exact .organizationBurn route hmint hkey.symm
    · exact absurd (haccounts key hkey) hne
  · intro payload' route'
    rw [route] at route'
    cases route'

end Transaction

theorem sample_burn_lowers :
    ((Sample.ledger 1000).execute Sample.organizationBurnViews
        Sample.organizationBurn).outcome.toOption.isSome = true ∧
      ((Sample.ledger 1000).execute Sample.organizationBurnViews
        Sample.organizationBurn).ledger.compressedBalance Sample.organizationKey = .int 60 := by
  decide +kernel

theorem execute_authorized {l : Ledger} {accounts : List AccountView} {data : Bytes}
    {receipt : Receipt} (h : (l.execute accounts data).outcome = .ok receipt) :
    Authorized l (l.execute accounts data).ledger accounts data := by
  obtain ⟨-, validated, t, m, settles, hledger⟩ := execute_receipt h
  rw [hledger]
  have hauthorized : Authorized l t accounts data := by
    generalize receipt.calls = calls at validated settles
    cases validated with
    | @splitTransfer payload v a b route hv allocated total =>
      obtain ⟨recordView, accepted⟩ := SplitTransfer.validate_outcome.1 hv
      obtain ⟨_, _, hlegs, -, ha, hb⟩ := Policy.allocate_int_legs allocated
      cases hlegs
      refine splitTransfer_authorized route accepted ?_ settles
      intro c hc
      rcases List.mem_cons.1 hc with rfl | hc
      · exact ⟨a, _, rfl, ha, rfl⟩
      · rw [List.mem_singleton.1 hc]
        exact ⟨b, _, rfl, hb, rfl⟩
    | directBurn route hv =>
      obtain ⟨recordView, accepted⟩ := DirectBurn.validate_outcome.1 hv
      exact directBurn_authorized route accepted rfl rfl settles
    | organizationBurn route hv =>
      obtain ⟨recordView, accepted⟩ := OrganizationBurn.validate_outcome.1 hv
      exact organizationBurn_authorized route accepted rfl rfl settles
  exact ⟨hauthorized.lowered, hauthorized.credited, hauthorized.written, hauthorized.burned⟩

/-- The burn of 40 from a balance of 100 is one that the organization and the authority have to
answer for. -/
theorem sample_burn_authorized :
    ∃ receipt, ((Sample.ledger 1000).execute Sample.organizationBurnViews
        Sample.organizationBurn).outcome = .ok receipt ∧
      MayPay (Sample.ledger 1000) Sample.organizationBurnViews Sample.organizationBurn
        Sample.organizationKey := by
  obtain ⟨hsome, hafter⟩ := sample_burn_lowers
  obtain ⟨receipt, hreceipt⟩ := Outcome.exists_ok_of_isSome hsome
  refine ⟨receipt, hreceipt, (execute_authorized hreceipt).lowered _ ?_⟩
  exact ⟨100, 60, rfl, by rw [hafter]; rfl, by omega⟩

end Settlement.Ledger
