import Settlement.Proofs.Ledger.Payment

/-! Lent capabilities. The calls of an accepted transfer or organization burn lend the capability of
the account that they debit, and no other. Whatever the ledger is like that answers such a call, it
finds the capability good, and misses no signature but that of the fee payer. -/

namespace Settlement

open Outcome

/-- Values that have no order are of the wrong kind, and nothing else can be wrong with them. -/
theorem Json.Value.less_eq_error (v w : Value) {e : Fault} (h : v.less w = .error e) :
    e = .wrongKind := by
  refine less.induct (fun v w => v.less w = .error e → e = .wrongKind)
    (fun vs ws => lessItems vs ws = .error e → e = .wrongKind) ?_ ?_ ?_ ?_ ?_ ?_ ?_ ?_ v w h
  · intro s t h
    cases h
  · intro xs ys ih h
    exact ih h
  · intro a b htext hlist x y hy hx h
    rw [less, hx, hy] at h
    · cases h
    · exact htext
    · exact hlist
  · intro a b htext hlist hnumbers h
    rw [less] at h
    · split at h
      · next x y hx hy => exact absurd hy (hnumbers x y hx)
      · exact (Except.error.inj h).symm
    · exact htext
    · exact hlist
  · intro x xs y ys halike ih h
    rw [lessItems, if_pos halike] at h
    exact ih h
  · intro x xs y ys halike ih h
    rw [lessItems, if_neg halike] at h
    exact ih h
  · intro ys h
    cases h
  · intro x xs h
    cases h

/-! Why a call on compressed balances fails. -/

/-- An outcome that no signal is the fault of. -/
def Outcome.Unsignalled {α : Type} (x : Outcome α) : Prop := ∀ e, x = .error e → e.signal? = none

namespace Outcome.Unsignalled

variable {α β : Type} {x : Outcome α} {f : α → Outcome β}

theorem ok (a : α) : Unsignalled (.ok a) := fun _ h => by cases h

theorem fault {e : Fault} (h : e.signal? = none) : Unsignalled (.error e : Outcome α) := by
  rintro _ ⟨⟩
  exact h

theorem bind (hx : Unsignalled x) (hf : ∀ a, Unsignalled (f a)) : Unsignalled (x >>= f) := by
  intro e h
  rcases bind_eq_error.1 h with h | ⟨a, -, h⟩
  · exact hx e h
  · exact hf a e h

theorem ite {p : Prop} [Decidable p] {y : Outcome α} (hx : Unsignalled x) (hy : Unsignalled y) :
    Unsignalled (if p then x else y) := by
  split
  · exact hx
  · exact hy

end Outcome.Unsignalled

theorem Json.Value.compute_unsignalled (f : Number → Number → Option Number) (a b : Json.Value) :
    Unsignalled (compute f a b) := by
  rw [compute]
  split
  · split
    · exact .ok _
    · exact .fault rfl
  · exact .fault rfl

namespace Ledger

variable {l : Ledger} {caller : Bytes} {c : Call}

theorem adjustSupply_unsignalled (mint : Bytes) (change : Json.Value) (l : Ledger) :
    Unsignalled (l.adjustSupply mint change) := by
  rw [adjustSupply]
  split
  · exact .ok _
  · refine .bind (.ite (.fault rfl) (.ok _)) fun _ => ?_
    refine .bind (Json.Value.compute_unsignalled _ _ _) fun supply => ?_
    refine .bind ?_ fun _ => .bind (.bind (.ite (.ok _) (.fault rfl)) fun _ => ?_) fun _ => .ok _
    · rw [Json.Value.fieldInt]
      split
      · exact .ok _
      · exact .fault rfl
    · exact .ite (.fault rfl) (.ok _)

theorem reduceSupply_unsignalled (c : Call) (mint : Bytes) (l : Ledger) :
    Unsignalled (reduceSupply c mint l) := by
  refine .bind ?_ fun change => adjustSupply_unsignalled mint change l
  rw [Json.Value.neg]
  split
  · exact .ok _
  · exact .fault rfl

/-- The one reason that a change of compressed balances gives. -/
theorem debitCompressed_reason {owner : Bytes} {e : Fault}
    (h : debitCompressed c owner l = .error e) :
    e.signal? = none ∨ e = rejection c "insufficient compressed balance" := by
  simp only [debitCompressed, error_bind, bind_eq_error, guard_eq_error] at h
  rcases h with h | ⟨_, _, ⟨_, h⟩ | ⟨_, h | ⟨_, _, h⟩⟩⟩
  · rw [Json.Value.less_eq_error _ _ h]
    exact .inl rfl
  · exact .inr h.symm
  · exact .inl (Json.Value.compute_unsignalled _ _ _ e h)
  · cases h

theorem creditCompressed_unsignalled (c : Call) (owner : Bytes) (l : Ledger) :
    Unsignalled (creditCompressed c owner l) :=
  .bind (Json.Value.compute_unsignalled _ _ _) fun _ => .ok _

theorem inOrder_pair_error {first second : Ledger → Outcome Ledger} {e : Fault} {t : Ledger}
    (h : inOrder [first, second] l = (.error e, t)) :
    first l = .error e ∨ ∃ s, first l = .ok s ∧ second s = .error e := by
  simp only [inOrder] at h
  cases hfirst : first l with
  | error e' =>
    simp only [hfirst] at h
    cases h
    exact .inl rfl
  | ok s =>
    simp only [hfirst] at h
    cases hsecond : second s with
    | error e' =>
      simp only [hsecond] at h
      obtain ⟨he, -⟩ := Prod.mk.inj h
      cases he
      exact .inr ⟨s, rfl, hsecond⟩
    | ok u =>
      simp only [hsecond] at h
      cases h

/-- A call on compressed balances makes a debit, and then a change that gives no reason. -/
theorem changes_compressed (hkind : c.kind = .compressedTransfer ∨ c.kind = .compressedBurn) :
    changes c = .error .wrongCount ∨ ∃ owner second,
      changes c = .ok [debitCompressed c owner, second] ∧ ∀ s, Unsignalled (second s) := by
  unfold changes
  split
  · exact .inr ⟨_, _, rfl, creditCompressed_unsignalled c _⟩
  · exact .inr ⟨_, _, rfl, reduceSupply_unsignalled c _⟩
  · exact .inl rfl
  · exact .inl rfl
  · next _ htransfer hburn => exact absurd hkind (not_or.2 ⟨htransfer, hburn⟩)
  · exact .inl rfl

/-- What a call on compressed balances is answered with, apart from success. -/
theorem invoke_compressed_error
    (hkind : c.kind = .compressedTransfer ∨ c.kind = .compressedBurn) {e : Fault}
    (h : (l.invoke caller c).1 = .error e) :
    l.authorize caller c = .error e ∨ e.signal? = none ∨
      e = rejection c "insufficient compressed balance" := by
  have hinvoked := invoke_invoked caller c l
  generalize l.invoke caller c = answer at h hinvoked
  cases hinvoked with
  | refused hauth =>
    cases h
    exact .inl hauth
  | applied => cases h
  | malformed hchanges =>
    cases h
    rcases changes_compressed hkind with hcount | ⟨owner, second, hpair, -⟩
    · cases hchanges.symm.trans hcount
      exact .inr (.inl rfl)
    · cases hchanges.symm.trans hpair
  | failed hchanges hrun =>
    cases h
    rcases changes_compressed hkind with hcount | ⟨owner, second, hpair, hsecond⟩
    · cases hchanges.symm.trans hcount
    · cases hchanges.symm.trans hpair
      rcases inOrder_pair_error hrun with hdebit | ⟨s, -, hrest⟩
      · exact .inr (debitCompressed_reason hdebit)
      · exact .inr (.inl (hsecond s _ hrest))

end Ledger

/-! Calls that lend the capability of the account they debit. -/

/-- A call on compressed balances that debits an account, lends the capability of this account and
no other, and leaves the fee payer as the only one besides it who has to sign. -/
structure Call.Lends (c : Call) (programs : Programs) (seeds : Seeds) (source payer : Bytes) :
    Prop where
  kind : c.kind = .compressedTransfer ∨ c.kind = .compressedBurn
  target : c.program = programs.compressedToken
  signers : c.signers = [seeds]
  derived : createAddress seeds programs.settlement = .ok source
  debited : c.debited? = some (.signing source)
  paid : .payer payer ∈ c.accounts
  marked : ∀ ref ∈ c.accounts, ref.signer = true → ref.key = payer ∨ ref.key = source

theorem Call.Lends.of_accounts {c : Call} {programs : Programs} {seeds : Seeds}
    {source payer : Bytes} {third system : AccountMeta}
    (hkind : c.kind = .compressedTransfer ∨ c.kind = .compressedBurn)
    (htarget : c.program = programs.compressedToken) (hsigners : c.signers = [seeds])
    (hderived : createAddress seeds programs.settlement = .ok source)
    (haccounts : c.accounts = [.payer payer, .signing source, third, system])
    (hthird : third.signer = false) (hsystem : system.signer = false) :
    c.Lends programs seeds source payer where
  kind := hkind
  target := htarget
  signers := hsigners
  derived := hderived
  debited := by rcases hkind with hkind | hkind <;> simp [Call.debited?, hkind, haccounts]
  paid := by
    rw [haccounts]
    exact List.mem_cons_self
  marked := by
    rw [haccounts]
    intro ref href hsigner
    simp only [List.mem_cons, List.not_mem_nil, or_false] at href
    rcases href with rfl | rfl | rfl | rfl
    · exact .inl rfl
    · exact .inr rfl
    · rw [hthird] at hsigner
      cases hsigner
    · rw [hsystem] at hsigner
      cases hsigner

section Lent

variable {rules : Rules} {accounts : List AccountView} {data : Bytes} {recordView : AccountView}

theorem SplitTransfer.mem_calls_of_script {v : SplitTransfer.Valid}
    (hv : (validate rules accounts data).outcome = .ok v) {c : Call}
    (hc : c ∈ (script rules accounts data).calls) : ∃ allocation, c ∈ v.calls allocation := by
  have faithful := script_faithful rules accounts data
  cases houtcome : (script rules accounts data).outcome with
  | error e =>
    rw [faithful.calls_of_error houtcome] at hc
    cases hc
  | ok settled =>
    rw [faithful.calls_of_ok houtcome] at hc
    simp only [script, Script.outcome_bind_eq_ok] at houtcome
    obtain ⟨v', hv', _, _, allocation, _, _, _, hsettled⟩ := houtcome
    cases hv.symm.trans hv'
    cases hsettled
    exact ⟨allocation, hc⟩

theorem OrganizationBurn.eq_call_of_script {v : OrganizationBurn.Valid}
    (hv : (validate rules accounts data).outcome = .ok v) {c : Call}
    (hc : c ∈ (script rules accounts data).calls) : c = v.call := by
  obtain ⟨settled, houtcome, hcalls⟩ := script_of_validated hv
  rw [(script_faithful rules accounts data).calls_of_ok houtcome, hcalls] at hc
  exact List.mem_singleton.1 hc

theorem SplitTransfer.Accepted.lends {v : SplitTransfer.Valid}
    (hv : SplitTransfer.Accepted rules accounts data recordView v) (allocation : Allocation) :
    ∀ c ∈ v.calls allocation, c.Lends rules.programs v.userSigner v.user.key v.feePayer.key := by
  have hderived : createAddress v.userSigner rules.programs.settlement = .ok v.user.key := by
    rw [← hv.userSigner]
    exact hv.user
  have hleg (destination : AccountView) (amount : Json.Value) :
      (v.leg destination amount).Lends rules.programs v.userSigner v.user.key v.feePayer.key :=
    .of_accounts (.inl rfl) hv.target rfl hderived rfl rfl rfl
  exact List.forall_mem_cons.2 ⟨hleg _ _, List.forall_mem_singleton.2 (hleg _ _)⟩

theorem OrganizationBurn.Accepted.lends {v : OrganizationBurn.Valid}
    (hv : OrganizationBurn.Accepted rules accounts data recordView v) :
    v.call.Lends rules.programs v.organizationSigner v.organization.key v.feePayer.key := by
  obtain ⟨bump, hfind, hseeds⟩ := hv.organization
  have hderived : createAddress v.organizationSigner rules.programs.settlement =
      .ok v.organization.key := by
    rw [← hseeds]
    exact Identity.address_of_find hfind
  exact .of_accounts (.inr rfl) hv.target rfl hderived rfl rfl rfl

end Lent

/-! How a ledger receives such a call. -/

namespace Ledger

/-- The failure that is to be injected into the next call, if this is its text. -/
def Injects (l : Ledger) (reason : String) : Prop :=
  l.injected? l.callIndex = some (.text (Text.of reason))

/-- The ledger derives every capability of a call and finds no signature missing but that of the fee
payer. It says otherwise only if it has been told to. -/
structure Recognizes (l : Ledger) (caller : Bytes) (c : Call) (payer : Bytes) : Prop where
  derives : ∃ keys, l.signedKeys caller c = .ok keys ∧
    ∀ ref ∈ c.accounts, ref.signer = true → ref.key ∉ keys → ref.key = payer
  seeds : (l.invoke caller c).1 = .error (rejection c "invalid signer seeds") →
    l.Injects "invalid signer seeds"
  signature : (l.invoke caller c).1 = .error (rejection c "missing required signature") →
    ¬ l.Signed caller c payer ∨ l.Injects "missing required signature"

theorem rejection_inj {c : Call} {reason other : String}
    (h : rejection c reason = rejection c other) : Text.of reason = Text.of other := by
  simpa [rejection] using h

end Ledger

namespace Call.Lends

variable {c : Call} {programs : Programs} {seeds : Seeds} {source payer : Bytes}

theorem signedKeys (h : c.Lends programs seeds source payer) (l : Ledger) :
    l.signedKeys programs.settlement c = .ok (l.signers ++ [source]) := by
  simp only [Ledger.signedKeys, h.signers, List.mapM_cons, List.mapM_nil, h.derived, ok_bind]
  rfl

theorem signed_source (h : c.Lends programs seeds source payer) (l : Ledger) :
    l.Signed programs.settlement c source :=
  .inr ⟨seeds, by rw [h.signers]; exact List.mem_singleton.2 rfl, h.derived⟩

theorem signed_iff (h : c.Lends programs seeds source payer) (l : Ledger) (key : Bytes) :
    l.Signed programs.settlement c key ↔ key ∈ l.signers ∨ key = source := by
  simp [Ledger.Signed, h.signers, h.derived, eq_comm]

theorem unsigned_iff (h : c.Lends programs seeds source payer) (l : Ledger) :
    (c.accounts.any fun ref => ref.signer && !(l.signers ++ [source]).contains ref.key) = true ↔
      ¬ l.Signed programs.settlement c payer := by
  have hout (key : Bytes) : (l.signers ++ [source]).contains key = false ↔
      ¬ l.Signed programs.settlement c key := by
    rw [h.signed_iff, ← Bool.not_eq_true, List.contains_iff_mem, List.mem_append,
      List.mem_singleton]
  constructor
  · intro hany
    obtain ⟨ref, href, hmissing⟩ := List.any_eq_true.1 hany
    rw [Bool.and_eq_true, Bool.not_eq_true', hout] at hmissing
    obtain ⟨hsigner, hunsigned⟩ := hmissing
    rcases h.marked ref href hsigner with hpayer | hsource
    · rwa [hpayer] at hunsigned
    · rw [hsource] at hunsigned
      exact absurd (h.signed_source l) hunsigned
  · intro hunsigned
    refine List.any_eq_true.2 ⟨_, h.paid, ?_⟩
    rw [Bool.and_eq_true, Bool.not_eq_true']
    exact ⟨rfl, (hout payer).2 hunsigned⟩

/-- What such a call is refused for before it changes anything: that no program handles it, that the
fee payer has not signed, or what the ledger has been told. -/
theorem authorize_error (h : c.Lends programs seeds source payer) {l : Ledger} {e : Fault}
    (he : l.authorize programs.settlement c = .error e) :
    e = .refused (.noHandler c.kind.name c.program) ∨
      ¬ l.Signed programs.settlement c payer ∧
        e = Ledger.rejection c "missing required signature" ∨
      ∃ detail, l.injected? l.callIndex = some detail ∧
        e = .signal (.external c.program detail) := by
  simp only [Ledger.authorize, h.signedKeys l, refuse, error_bind, ok_bind, guard_eq_error,
    h.unsigned_iff] at he
  rcases he with ⟨-, he⟩ | ⟨-, ⟨hunsigned, he⟩ | ⟨-, he⟩⟩
  · exact .inl he.symm
  · exact .inr (.inl ⟨hunsigned, he.symm⟩)
  · split at he
    · next detail hinjected =>
      cases he
      exact .inr (.inr ⟨detail, hinjected, rfl⟩)
    · cases he

theorem recognized (h : c.Lends programs seeds source payer) (l : Ledger) :
    l.Recognizes programs.settlement c payer := by
  have hanswer {reason : String}
      (hreason : Text.of reason ≠ Text.of "insufficient compressed balance")
      (he : (l.invoke programs.settlement c).1 = .error (Ledger.rejection c reason)) :
      ¬ l.Signed programs.settlement c payer ∧
          Text.of reason = Text.of "missing required signature" ∨ l.Injects reason := by
    rcases Ledger.invoke_compressed_error h.kind he with hauth | hfault | hbalance
    · rcases h.authorize_error hauth with hhandler | ⟨hunsigned, hmissing⟩ | ⟨_, hinjected, hdetail⟩
      · cases hhandler
      · exact .inl ⟨hunsigned, Ledger.rejection_inj hmissing⟩
      · cases hdetail
        exact .inr hinjected
    · cases hfault
    · exact absurd (Ledger.rejection_inj hbalance) hreason
  constructor
  · refine ⟨_, h.signedKeys l, fun ref href hsigner hmissing => ?_⟩
    rcases h.marked ref href hsigner with hpayer | hsource
    · exact hpayer
    · exact absurd (List.mem_append_right _ (List.mem_singleton.2 hsource)) hmissing
  · intro he
    rcases hanswer (by decide) he with ⟨-, hreason⟩ | hinjected
    · exact absurd hreason (by decide)
    · exact hinjected
  · intro he
    exact (hanswer (by decide) he).imp_left And.left

end Call.Lends

/-- Lent capabilities match the debited account. Whatever accounts and data a transfer or an
organization burn is accepted with, the capability that comes out of its validation derives the key
of the user or of the organization; every call made of it, whatever the allocation, lends this
capability and debits this account; and a ledger that is asked by the program always recognizes the
capability, and misses no signature but that of the fee payer. -/
theorem capabilities_match (rules : Rules) (accounts : List AccountView) (data : Bytes) :
    (∀ v, (SplitTransfer.validate rules accounts data).outcome = .ok v →
      accounts[3]? = some v.user ∧
      createAddress v.userSigner rules.programs.settlement = .ok v.user.key ∧
      (∀ c ∈ (SplitTransfer.script rules accounts data).calls,
        ∃ allocation, c ∈ v.calls allocation) ∧
      ∀ allocation, ∀ c ∈ v.calls allocation,
        c.Lends rules.programs v.userSigner v.user.key v.feePayer.key ∧
        ∀ l : Ledger, l.Recognizes rules.programs.settlement c v.feePayer.key) ∧
    ∀ v, (OrganizationBurn.validate rules accounts data).outcome = .ok v →
      accounts[3]? = some v.organization ∧
      createAddress v.organizationSigner rules.programs.settlement = .ok v.organization.key ∧
      (∀ c ∈ (OrganizationBurn.script rules accounts data).calls, c = v.call) ∧
      v.call.Lends rules.programs v.organizationSigner v.organization.key v.feePayer.key ∧
      ∀ l : Ledger, l.Recognizes rules.programs.settlement v.call v.feePayer.key := by
  constructor
  · intro v hvalidated
    obtain ⟨recordView, hv⟩ := SplitTransfer.validate_outcome.1 hvalidated
    have hlends := hv.lends
    refine ⟨by rw [hv.accounts_eq]; rfl, (hlends ⟨.null, .null⟩ _ List.mem_cons_self).derived,
      fun c hc => SplitTransfer.mem_calls_of_script hvalidated hc, fun allocation c hc => ?_⟩
    exact ⟨hlends allocation c hc, (hlends allocation c hc).recognized⟩
  · intro v hvalidated
    obtain ⟨recordView, hv⟩ := OrganizationBurn.validate_outcome.1 hvalidated
    exact ⟨by rw [hv.accounts_eq]; rfl, hv.lends.derived,
      fun c hc => OrganizationBurn.eq_call_of_script hvalidated hc, hv.lends, hv.lends.recognized⟩

/-- A payment whose fee payer has not signed: this signature, and no other, is what the ledger
misses. -/
theorem unsigned_payer_missed : ∃ v : SplitTransfer.Valid,
    let l := Ledger.Sample.funded 120 5
    let leg := v.leg v.organization (.int 100)
    createAddress v.userSigner Config.programAddress = .ok v.user.key ∧
      leg.signers = [v.userSigner] ∧ leg.debited? = some (.signing v.user.key) ∧
      (l.invoke Config.programAddress leg).1 =
        .error (Ledger.rejection leg "missing required signature") ∧
      ¬ l.Signed Config.programAddress leg v.feePayer.key := by
  obtain ⟨v, hpayment, huser, -, hpayer, -⟩ := Ledger.sample_payment 120 5
  obtain ⟨payload, -, hv⟩ := hpayment.validated
  obtain ⟨-, hderived, -, hcalls⟩ := (capabilities_match _ _ _).1 v hv
  obtain ⟨hlends, hrecognized⟩ := hcalls ⟨.int 100, .int 20⟩ _ List.mem_cons_self
  have hunsigned : ¬ (Ledger.Sample.funded 120 5).Signed Config.programAddress
      (v.leg v.organization (.int 100)) v.feePayer.key := by
    intro hsigned
    rcases (hlends.signed_iff _ _).1 hsigned with hnone | hself
    · cases hnone
    · rw [hpayer, huser] at hself
      exact absurd hself (by decide)
  have hrefused := Ledger.authorize_unsigned
    (Ledger.handles_of_compressed hlends.kind hlends.target (by decide))
    (fun seeds hseeds => ?_) hlends.paid rfl hunsigned
  · have hanswer := congrArg Prod.fst (Ledger.invoke_of_unauthorized hrefused)
    refine ⟨v, hderived, hlends.signers, hlends.debited, hanswer, ?_⟩
    rcases (hrecognized (Ledger.Sample.funded 120 5)).signature hanswer with hmissing | hinjected
    · exact hmissing
    · cases hinjected
  · rw [hlends.signers] at hseeds
    rw [List.mem_singleton.1 hseeds]
    exact ⟨_, hlends.derived⟩

end Settlement
