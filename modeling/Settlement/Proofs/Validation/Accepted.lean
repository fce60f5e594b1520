import Settlement.Proofs.Validation.Checks

/-! What the validation of each operation accepts. It makes no call, and it succeeds exactly if its
conditions hold of the accounts, of the record and of the payload. -/

namespace Settlement

open Script

namespace SplitTransfer

structure Accepted (rules : Rules) (accounts : List AccountView) (data : Bytes)
    (recordView : AccountView) (v : Valid) : Prop where
  accounts_eq : accounts = v.transferAuthority :: recordView :: v.mint :: v.user ::
    v.organization :: v.incentivePool :: v.feePayer :: v.systemProgram ::
    v.compressedTokenProgram :: v.remaining
  trusted : Validation.Trusted rules recordView v.record
  unpaused : v.record.paused = false
  signed : v.transferAuthority.signer = true
  authorized : v.transferAuthority.key = v.record.transferAuthority
  decoded : decode data = .ok v.payload
  user : (Identity.user v.payload.userId).address v.payload.userBump rules.programs.settlement =
    .ok v.user.key
  organization : (Identity.organization v.payload.orgId).address v.payload.orgBump
    rules.programs.settlement = .ok v.organization.key
  incentivePool : Identity.incentivePool.address v.payload.poolBump rules.programs.settlement =
    .ok v.incentivePool.key
  mintOwner : v.mint.owner = rules.programs.token
  mintKey : v.mint.key = v.record.mint
  target : v.compressedTokenProgram.key = rules.programs.compressedToken
  nonzero : v.payload.totalAmount ≠ 0
  allowed : rules.policy.allows (.ofString v.payload.operationType) = true
  userSigner : (Identity.user v.payload.userId).seeds v.payload.userBump = v.userSigner

theorem validate_silent (rules : Rules) (accounts : List AccountView) (data : Bytes) :
    (validate rules accounts data).Silent := by
  refine .bind (.charge _ _) fun _ => ?_
  split
  · refine .bind (Validation.record_silent _ _) fun _ => ?_
    refine .bind (.require _ _) fun _ => .bind (.charge _ _) fun _ => ?_
    refine .bind (Validation.authority_silent _ _ _) fun _ => ?_
    refine .bind (.charge _ _) fun _ => .bind (.check _) fun _ => .bind (.charge _ _) fun _ => ?_
    refine .bind (Validation.identity_silent _ _ _ _ _) fun _ => ?_
    refine .bind (Validation.identity_silent _ _ _ _ _) fun _ => ?_
    refine .bind (Validation.identity_silent _ _ _ _ _) fun _ => .bind (.charge _ _) fun _ => ?_
    refine .bind (Validation.mint_silent _ _ _) fun _ => ?_
    repeat refine .bind (by simp) fun _ => ?_
    exact .pure _
  · exact .attempt _

theorem validate_outcome {rules : Rules} {accounts : List AccountView} {data : Bytes} {v : Valid} :
    (validate rules accounts data).outcome = .ok v ↔
      ∃ recordView, Accepted rules accounts data recordView v := by
  simp only [validate, outcome_bind_eq_ok, outcome_charge, exists_const, true_and]
  split
  · next authority recordView mint user organization pool payer system compressed remaining =>
    simp only [outcome_bind_eq_ok, outcome_charge, outcome_check_eq_ok, outcome_require_eq_ok,
      outcome_pure, Validation.record_outcome, Validation.authority_outcome,
      Validation.identity_outcome, Validation.mint_outcome, beq_iff_eq, bne_iff_ne,
      Bool.not_eq_true', Except.ok.injEq, exists_const, true_and]
    constructor
    · rintro ⟨r, hr, hp, ⟨hs, ha⟩, p, hd, _, ⟨hu, rfl⟩, _, ⟨ho, _⟩, _, ⟨hi, _⟩, ⟨hm, hk⟩, ht, hz,
        hl, rfl⟩
      exact ⟨recordView, rfl, hr, hp, hs, ha, hd, hu, ho, hi, hm, hk, ht, hz, hl, rfl⟩
    · rintro ⟨recordView', h⟩
      obtain ⟨r, p⟩ := v
      cases h.accounts_eq
      exact ⟨r, h.trusted, h.unpaused, ⟨h.signed, h.authorized⟩, p, h.decoded, _,
        ⟨h.user, h.userSigner⟩, _, ⟨h.organization, rfl⟩, _, ⟨h.incentivePool, rfl⟩,
        ⟨h.mintOwner, h.mintKey⟩, h.target, h.nonzero, h.allowed, rfl⟩
  · next hne =>
    constructor
    · intro h
      simp [refuse] at h
    · rintro ⟨recordView, h⟩
      exact absurd h.accounts_eq (hne _ _ _ _ _ _ _ _ _ _)

end SplitTransfer

namespace DirectBurn

/-- The conditions of a direct burn. The owner of the token account is the fifth account, whatever
owner the token account names: that is left to the token program. -/
structure Accepted (rules : Rules) (accounts : List AccountView) (data : Bytes)
    (recordView : AccountView) (v : Valid) : Prop where
  accounts_eq : ∃ remaining, accounts = v.authority :: recordView :: v.mint :: v.tokenAccount ::
    v.tokenAccountOwner :: v.tokenProgram :: remaining
  trusted : Validation.Trusted rules recordView v.record
  unpaused : (rules.gatesDirectBurn && v.record.paused) = false
  signed : v.authority.signer = true
  authorized : v.authority.key = v.record.treasury
  ownerSigned : v.tokenAccountOwner.signer = true
  decoded : decode data = .ok v.payload
  mintOwner : v.mint.owner = rules.programs.token
  mintKey : v.mint.key = v.record.mint
  owned : v.tokenAccount.owner = rules.programs.token
  size : TokenAccount.size ≤ v.tokenAccount.data.length
  source : TokenAccount.decode v.tokenAccount.data = .ok v.source
  sourceMint : v.source.mint = v.mint.key
  target : v.tokenProgram.key = rules.programs.token
  nonzero : v.payload.amount ≠ 0
  memo : Memo.check (Text.of v.payload.memo) = .ok ()
  covered : v.payload.amount.toNat ≤ v.source.amount

theorem validate_silent (rules : Rules) (accounts : List AccountView) (data : Bytes) :
    (validate rules accounts data).Silent := by
  refine .bind (.charge _ _) fun _ => ?_
  split
  · refine .bind (Validation.record_silent _ _) fun _ => ?_
    refine .bind (.require _ _) fun _ => .bind (.charge _ _) fun _ => ?_
    refine .bind (Validation.authority_silent _ _ _) fun _ => .bind (.require _ _) fun _ => ?_
    refine .bind (.charge _ _) fun _ => .bind (.check _) fun _ => .bind (.charge _ _) fun _ => ?_
    refine .bind (Validation.mint_silent _ _ _) fun _ => ?_
    repeat refine .bind (by simp) fun _ => ?_
    exact .pure _
  · exact .attempt _

theorem validate_outcome {rules : Rules} {accounts : List AccountView} {data : Bytes} {v : Valid} :
    (validate rules accounts data).outcome = .ok v ↔
      ∃ recordView, Accepted rules accounts data recordView v := by
  simp only [validate, outcome_bind_eq_ok, outcome_charge, exists_const, true_and]
  split
  · next authority recordView mint tokenAccount owner tokenProgram remaining =>
    simp only [Validation.signer, outcome_bind_eq_ok, outcome_charge, outcome_check_eq_ok,
      outcome_require_eq_ok, outcome_attempt, outcome_pure, Validation.record_outcome,
      Validation.authority_outcome, Validation.mint_outcome, beq_iff_eq, bne_iff_ne,
      Bool.not_eq_true', decide_eq_true_eq, Except.ok.injEq, exists_const, true_and]
    constructor
    · rintro ⟨r, hr, hp, ⟨hs, ha⟩, hos, p, hd, ⟨hm, hk⟩, hto, hsz, s, hsrc, hsm, ht, hz, _, hmemo,
        hc, rfl⟩
      exact ⟨recordView, ⟨remaining, rfl⟩, hr, hp, hs, ha, hos, hd, hm, hk, hto, hsz, hsrc, hsm, ht,
        hz, hmemo, hc⟩
    · rintro ⟨recordView', h⟩
      obtain ⟨r, p⟩ := v
      obtain ⟨remaining', he⟩ := h.accounts_eq
      cases he
      exact ⟨r, h.trusted, h.unpaused, ⟨h.signed, h.authorized⟩, h.ownerSigned, p, h.decoded,
        ⟨h.mintOwner, h.mintKey⟩, h.owned, h.size, _, h.source, h.sourceMint, h.target, h.nonzero,
        (), h.memo, h.covered, rfl⟩
  · next hne =>
    constructor
    · intro h
      simp [refuse] at h
    · rintro ⟨recordView, h⟩
      obtain ⟨remaining, he⟩ := h.accounts_eq
      exact absurd he (hne _ _ _ _ _ _ _)

end DirectBurn

namespace OrganizationBurn

/-- The conditions of an organization burn. The organization stands at its canonical address. -/
structure Accepted (rules : Rules) (accounts : List AccountView) (data : Bytes)
    (recordView : AccountView) (v : Valid) : Prop where
  accounts_eq : accounts = v.transferAuthority :: recordView :: v.mint :: v.organization ::
    v.feePayer :: v.systemProgram :: v.compressedTokenProgram :: v.remaining
  trusted : Validation.Trusted rules recordView v.record
  unpaused : v.record.paused = false
  signed : v.transferAuthority.signer = true
  authorized : v.transferAuthority.key = v.record.transferAuthority
  payerSigned : v.feePayer.signer = true
  decoded : decode data = .ok v.payload
  organization : ∃ bump,
    (Identity.organization v.payload.orgId).find rules.programs.settlement =
      .ok (v.organization.key, bump) ∧
    (Identity.organization v.payload.orgId).seeds bump = v.organizationSigner
  mintOwner : v.mint.owner = rules.programs.token
  mintKey : v.mint.key = v.record.mint
  system : v.systemProgram.key = rules.programs.system
  target : v.compressedTokenProgram.key = rules.programs.compressedToken
  nonzero : v.payload.amount ≠ 0
  memo : Memo.check (Text.of v.payload.memo) = .ok ()

theorem validate_silent (rules : Rules) (accounts : List AccountView) (data : Bytes) :
    (validate rules accounts data).Silent := by
  refine .bind (.charge _ _) fun _ => ?_
  split
  · refine .bind (Validation.record_silent _ _) fun _ => ?_
    refine .bind (.require _ _) fun _ => .bind (.charge _ _) fun _ => ?_
    refine .bind (Validation.authority_silent _ _ _) fun _ => .bind (.require _ _) fun _ => ?_
    refine .bind (.charge _ _) fun _ => .bind (.check _) fun _ => .bind (.charge _ _) fun _ => ?_
    refine .bind (Validation.canonicalIdentity_silent _ _ _ _) fun _ => ?_
    refine .bind (.charge _ _) fun _ => .bind (Validation.mint_silent _ _ _) fun _ => ?_
    repeat refine .bind (by simp) fun _ => ?_
    exact .pure _
  · exact .attempt _

theorem validate_outcome {rules : Rules} {accounts : List AccountView} {data : Bytes} {v : Valid} :
    (validate rules accounts data).outcome = .ok v ↔
      ∃ recordView, Accepted rules accounts data recordView v := by
  simp only [validate, outcome_bind_eq_ok, outcome_charge, exists_const, true_and]
  split
  · next authority recordView mint organization payer system compressed remaining =>
    simp only [Validation.signer, outcome_bind_eq_ok, outcome_charge, outcome_check_eq_ok,
      outcome_require_eq_ok, outcome_pure, Validation.record_outcome,
      Validation.authority_outcome, Validation.canonicalIdentity_outcome, Validation.mint_outcome,
      beq_iff_eq, bne_iff_ne, Bool.not_eq_true', Except.ok.injEq, exists_const, true_and]
    constructor
    · rintro ⟨r, hr, hp, ⟨hs, ha⟩, hps, p, hd, s, ho, ⟨hm, hk⟩, hsys, ht, hz, _, hmemo, rfl⟩
      exact ⟨recordView, rfl, hr, hp, hs, ha, hps, hd, ho, hm, hk, hsys, ht, hz, hmemo⟩
    · rintro ⟨recordView', h⟩
      obtain ⟨r, p⟩ := v
      cases h.accounts_eq
      exact ⟨r, h.trusted, h.unpaused, ⟨h.signed, h.authorized⟩, h.payerSigned, p, h.decoded, _,
        h.organization, ⟨h.mintOwner, h.mintKey⟩, h.system, h.target, h.nonzero, (), h.memo, rfl⟩
  · next hne =>
    constructor
    · intro h
      simp [refuse] at h
    · rintro ⟨recordView, h⟩
      exact absurd h.accounts_eq (hne _ _ _ _ _ _ _ _)

end OrganizationBurn
end Settlement
