import Settlement.Proofs.Account.Token
import Settlement.Proofs.Validation.Verdicts

/-! The verdicts of validation on burns. A direct burn reads a token account only after the length
of its data has been judged, and an organization has to stand at the address with the highest bump.
-/

namespace Settlement

open Script Condition

variable {σ : Type}

/-- The token account that data of sufficient length holds. -/
def Validation.held (view : AccountView) : TokenAccount :=
  (TokenAccount.decode view.data).toOption.getD ⟨[], [], 0⟩

theorem Validation.held_judged {view : AccountView} (h : TokenAccount.size ≤ view.data.length) :
    (attempt (TokenAccount.decode view.data)).Judged [] (held view) := by
  obtain ⟨token, htoken⟩ := TokenAccount.decode_of_size h
  have hheld : held view = token := by
    rw [held, htoken]
    rfl
  rw [hheld]
  exact .attempt htoken

namespace DirectBurn

def requested (data : Bytes) : DirectBurn := (decode data).toOption.getD ⟨0, ""⟩

theorem decode_code (data : Bytes) (r : Refusal) (h : decode data = .error r) :
    r.code = .inl .invalidInstructionData :=
  exact_reader.read_eq_error h

/-- The conditions of a direct burn, in their order. Its accounts are the treasury, the record, the
mint, the token account, the owner of the token account and the token program. -/
def conditions (rules : Rules) (accounts : List AccountView) (data : Bytes) : List Condition :=
  let view (i : Nat) := accounts.getD i .absent
  let record := Validation.recorded (view 1)
  let held := Validation.held (view 3)
  let p := requested data
  let programs := rules.programs
  [.demand (6 ≤ accounts.length) (.tooFewAccounts 6 accounts.length),
    .demand ((view 1).data.length = 363) (.recordLength (view 1).data.length),
    .demand ((view 1).owner = programs.settlement) .recordOwner,
    .demand (Identity.configRecord.address record.bump programs.settlement = .ok (view 1).key)
      .recordAddress,
    .demand (record.initialized = true) .notInitialized,
    .demand (rules.gatesDirectBurn = true → record.paused = false) .paused,
    .demand ((view 0).signer = true) (.unsigned .treasuryAuthority),
    .demand ((view 0).key = record.treasury) (.wrongAuthority .treasuryAuthority),
    .demand ((view 4).signer = true) (.unsigned .tokenAccountOwner),
    .readable (decode data) (decode_code data),
    .demand ((view 2).owner = programs.token) .mintOwner,
    .demand ((view 2).key = record.mint) .mintKey,
    .demand ((view 3).owner = programs.token) .tokenAccountOwner,
    .demand (165 ≤ (view 3).data.length) .tokenAccountLength,
    .demand (held.mint = (view 2).key) .tokenAccountMint,
    .demand ((view 5).key = programs.token) (.wrongProgram .tokenProgram),
    .demand (p.amount ≠ 0) .zeroAmount,
    .demand (Memo.InGrammar (Text.of p.memo)) (.memoFormat (Text.of p.memo)),
    .demand (p.amount.toNat ≤ held.amount) (.lowBalance held.amount p.amount.toNat)]

def context (accounts : List AccountView) (data : Bytes) : Valid :=
  let view (i : Nat) := accounts.getD i .absent
  { record := Validation.recorded (view 1)
    payload := requested data
    authority := view 0
    mint := view 2
    tokenAccount := view 3
    tokenAccountOwner := view 4
    tokenProgram := view 5
    source := Validation.held (view 3) }

theorem validate_judged (rules : Rules) (accounts : List AccountView) (data : Bytes) :
    (validate rules accounts data).Judged (conditions rules accounts data)
      (context accounts data) := by
  have hpayload : (check (decode data)).Judged [.readable (decode data) (decode_code data)]
      (requested data) := .check (decode_code data) _
  refine .bind (.charge _ _) ?_
  split
  · next authority recordView mint tokenAccount owner tokenProgram remaining =>
    refine .held (by simp) (.bind (Validation.record_judged rules recordView) ?_) _
    have hpause (paused : Bool) : (!(rules.gatesDirectBurn && paused)) = true ↔
        (rules.gatesDirectBurn = true → paused = false) := by
      cases rules.gatesDirectBurn <;> simp
    refine .bind (.require (hpause _) _) (.bind (.charge _ _) ?_)
    refine .bind (Validation.authority_judged _ _ _) ?_
    refine .bind (Validation.signer_judged _ _) (.bind (.charge _ _) ?_)
    refine .bind hpayload (.bind (.charge _ _) ?_)
    refine .bind (Validation.mint_judged _ _ _) (.bind (.require beq_iff_eq _) ?_)
    -- The account is read without a check of its own: the length before it is what makes it safe.
    refine .bind_held (.require decide_eq_true_iff _) fun hsize => ?_
    have hlong := demand_holds.1 (List.forall_mem_singleton.1 hsize)
    refine .bind (Validation.held_judged hlong) (.bind (.require beq_iff_eq _) ?_)
    refine .bind (.charge _ _) (.bind (.require beq_iff_eq _) (.bind (.charge _ _) ?_))
    refine .bind (.require bne_iff_ne _) (.bind (Validation.memo_judged _) ?_)
    exact .bind (.charge _ _) (.bind (.require decide_eq_true_iff _) (.pure _))
  · next hshort =>
    refine .broken (fun hlength => ?_) _
    rcases accounts with _ | ⟨_, _ | ⟨_, _ | ⟨_, _ | ⟨_, _ | ⟨_, _ | ⟨_, _⟩⟩⟩⟩⟩⟩
    iterate 6 · simp at hlength
    exact hshort _ _ _ _ _ _ _ rfl

/-- Validation of a direct burn accepts exactly what fulfils its conditions, and gives the first
condition that does not hold as the reason of a refusal. It fails in no other way. -/
theorem direct_verdict (rules : Rules) (accounts : List AccountView) (data : Bytes) (host : Host σ)
    (caller : Bytes) {m : Meter} {used : Int} (hused : m.used = .int used)
    (hlimit : m.limit.Covers (used + (validate rules accounts data).cost)) (t : σ) :
    let run := runSteps host caller (validate rules accounts data).steps m t
    let outcome := run.outcome (validate rules accounts data)
    let cs := conditions rules accounts data
    run.handed = [] ∧ run.host = t ∧
      (∀ v, outcome = .ok v ↔ (∀ c ∈ cs, c.Holds) ∧ v = context accounts data) ∧
      (∀ e, outcome = .error e ↔
        ∃ c r, FirstBroken cs c r ∧ r.code = c.code ∧ e = .refused r) ∧
      cs.map (fun c => c.code.map id ErrorCode.number) =
        [.inl .notEnoughAccountKeys, .inl .invalidAccountData, .inr 6000, .inr 6007, .inr 6010,
          .inr 6018, .inr 6000, .inr 6000, .inr 6000, .inl .invalidInstructionData, .inr 6011,
          .inr 6011, .inr 6000, .inl .invalidAccountData, .inr 6011, .inr 6025, .inr 6012,
          .inr 6009, .inr 6004] := by
  intro run outcome cs
  obtain ⟨hhanded, hhost, haccepted, hrefused⟩ := (validate_judged rules accounts data).verdict
    (validate_silent rules accounts data) host caller hused hlimit t
  exact ⟨hhanded, hhost, haccepted, hrefused, rfl⟩

/-- Of a bad memo and a balance that is too low, the memo is the reason. The whole balance may be
burned. -/
theorem memo_before_balance :
    let rules := Ledger.Sample.program.rules
    let views := Ledger.Sample.directBurnViews
    let payload (amount : UInt64) (memo : String) :=
      (Ledger.Sample.instruction (.directBurn ⟨amount, memo⟩)).drop 8
    let under (data : Bytes) :=
      (runSteps Host.absent [] (validate rules views data).steps (.start (.int 2030)) ()).outcome
        (validate rules views data)
    under (payload 101 "zupy:v1:a") = .error (.refused (.memoFormat (Text.of "zupy:v1:a"))) ∧
      under (payload 101 "zupy:v1:a:b") = .error (.refused (.lowBalance 100 101)) ∧
      under (payload 100 "zupy:v1:a:b") = .ok (context views (payload 100 "zupy:v1:a:b")) := by
  intro rules views payload under
  have hlimit (data : Bytes) :
      (Meter.start (.int 2030)).limit.Covers (0 + (validate rules views data).cost) :=
    Meter.start_covers (Int.ofNat_le.2 (validate_priced _ _ _).bounded)
  have hverdict (data : Bytes) :=
    direct_verdict rules views data Host.absent [] rfl (hlimit data) ()
  have hmemo : judge (conditions rules views (payload 101 "zupy:v1:a")) =
      .error (.memoFormat (Text.of "zupy:v1:a")) := by decide +kernel
  have hbalance : judge (conditions rules views (payload 101 "zupy:v1:a:b")) =
      .error (.lowBalance 100 101) := by decide +kernel
  have hwhole : judge (conditions rules views (payload 100 "zupy:v1:a:b")) = .ok () := by
    decide +kernel
  refine ⟨?_, ?_, ?_⟩
  · obtain ⟨-, -, -, hrefused, -⟩ := hverdict (payload 101 "zupy:v1:a")
    obtain ⟨c, hc⟩ := judge_eq_error.1 hmemo
    exact (hrefused _).2 ⟨c, _, hc, hc.code, rfl⟩
  · obtain ⟨-, -, -, hrefused, -⟩ := hverdict (payload 101 "zupy:v1:a:b")
    obtain ⟨c, hc⟩ := judge_eq_error.1 hbalance
    exact (hrefused _).2 ⟨c, _, hc, hc.code, rfl⟩
  · obtain ⟨-, -, haccepted, -⟩ := hverdict (payload 100 "zupy:v1:a:b")
    exact (haccepted _).2 ⟨judge_eq_ok.1 hwhole, rfl⟩

end DirectBurn

namespace OrganizationBurn

def requested (data : Bytes) : OrganizationBurn := (decode data).toOption.getD ⟨0, 0, ""⟩

theorem decode_code (data : Bytes) (r : Refusal) (h : decode data = .error r) :
    r.code = .inl .invalidInstructionData :=
  exact_reader.read_eq_error h

/-- The conditions of an organization burn, in their order. Its accounts are the transfer authority,
the record, the mint, the organization, the fee payer, the system program and the compressed token
program. -/
def conditions (rules : Rules) (accounts : List AccountView) (data : Bytes) : List Condition :=
  let view (i : Nat) := accounts.getD i .absent
  let record := Validation.recorded (view 1)
  let p := requested data
  let programs := rules.programs
  [.demand (7 ≤ accounts.length) (.tooFewAccounts 7 accounts.length),
    .demand ((view 1).data.length = 363) (.recordLength (view 1).data.length),
    .demand ((view 1).owner = programs.settlement) .recordOwner,
    .demand (Identity.configRecord.address record.bump programs.settlement = .ok (view 1).key)
      .recordAddress,
    .demand (record.initialized = true) .notInitialized,
    .demand (record.paused = false) .paused,
    .demand ((view 0).signer = true) (.unsigned .transferAuthority),
    .demand ((view 0).key = record.transferAuthority) (.wrongAuthority .transferAuthority),
    .demand ((view 4).signer = true) (.unsigned .feePayer),
    .readable (decode data) (decode_code data),
    .demand ((Identity.organization p.orgId).Canonical programs.settlement (view 3).key)
      (.wrongIdentity .organization),
    .demand ((view 2).owner = programs.token) .mintOwner,
    .demand ((view 2).key = record.mint) .mintKey,
    .demand ((view 5).key = programs.system) (.wrongTarget .systemProgram),
    .demand ((view 6).key = programs.compressedToken) (.wrongTarget .compressedTokenProgram),
    .demand (p.amount ≠ 0) .zeroAmount,
    .demand (Memo.InGrammar (Text.of p.memo)) (.memoFormat (Text.of p.memo))]

/-- The organization signs with the bump that the search for its address ends at. -/
def context (rules : Rules) (accounts : List AccountView) (data : Bytes) : Valid :=
  let view (i : Nat) := accounts.getD i .absent
  let p := requested data
  let organization := Identity.organization p.orgId
  let found := (organization.find rules.programs.settlement).toOption.getD ([], 0)
  { record := Validation.recorded (view 1)
    payload := p
    transferAuthority := view 0
    mint := view 2
    organization := view 3
    feePayer := view 4
    systemProgram := view 5
    compressedTokenProgram := view 6
    remaining := accounts.drop 7
    organizationSigner := organization.seeds found.2 }

theorem validate_judged {rules : Rules} {data : Bytes}
    (haddress : ∀ p, decode data = .ok p → ∃ bump address,
      (Identity.organization p.orgId).address bump rules.programs.settlement = .ok address)
    (accounts : List AccountView) :
    (validate rules accounts data).Judged (conditions rules accounts data)
      (context rules accounts data) := by
  have hpayload : (check (decode data)).Judged [.readable (decode data) (decode_code data)]
      (requested data) := .check (decode_code data) _
  refine .bind (.charge _ _) ?_
  split
  · next authority recordView mint organization payer system compressed remaining =>
    refine .held (by simp) (.bind (Validation.record_judged rules recordView) ?_) _
    refine .bind (.require (by simp) _) (.bind (.charge _ _) ?_)
    refine .bind (Validation.authority_judged _ _ _) ?_
    refine .bind (Validation.signer_judged _ _) (.bind (.charge _ _) ?_)
    -- Only a payload that can be read names an organization to search for.
    refine .bind_held hpayload fun hreadable => .bind (.charge _ _) ?_
    obtain ⟨p, hp⟩ := readable_holds.1 (List.forall_mem_singleton.1 hreadable)
    have hrequested : requested data = p := by
      rw [requested, hp]
      rfl
    obtain ⟨bump, address, hbump⟩ := haddress p hp
    obtain ⟨found, hfound⟩ := Identity.find_ok_of_address hbump
    rw [← hrequested] at hfound
    have hsigner := Validation.canonicalIdentity_judged hfound organization .organization
    have hcontext : ((Identity.organization (requested data).orgId).find
        rules.programs.settlement).toOption.getD ([], 0) = found := by
      rw [hfound]
      rfl
    rw [← hcontext] at hsigner
    refine .bind hsigner (.bind (.charge _ _) ?_)
    refine .bind (Validation.mint_judged _ _ _) (.bind (.charge _ _) ?_)
    refine .bind (.require beq_iff_eq _) (.bind (.require beq_iff_eq _) (.bind (.charge _ _) ?_))
    exact .bind (.require bne_iff_ne _) (.bind (Validation.memo_judged _) (.pure _))
  · next hshort =>
    refine .broken (fun hlength => ?_) _
    rcases accounts with _ | ⟨_, _ | ⟨_, _ | ⟨_, _ | ⟨_, _ | ⟨_, _ | ⟨_, _ | ⟨_, _⟩⟩⟩⟩⟩⟩⟩
    iterate 7 · simp at hlength
    exact hshort _ _ _ _ _ _ _ _ rfl

/-- If the organization of a payload has an address at all, validation of its burn accepts exactly
what fulfils its conditions, and gives the first condition that does not hold as the reason of a
refusal. -/
theorem organization_verdict (rules : Rules) (accounts : List AccountView) (data : Bytes)
    (haddress : ∀ p, decode data = .ok p → ∃ bump address,
      (Identity.organization p.orgId).address bump rules.programs.settlement = .ok address)
    (host : Host σ) (caller : Bytes) {m : Meter} {used : Int} (hused : m.used = .int used)
    (hlimit : m.limit.Covers (used + (validate rules accounts data).cost)) (t : σ) :
    let run := runSteps host caller (validate rules accounts data).steps m t
    let outcome := run.outcome (validate rules accounts data)
    let cs := conditions rules accounts data
    run.handed = [] ∧ run.host = t ∧
      (∀ v, outcome = .ok v ↔ (∀ c ∈ cs, c.Holds) ∧ v = context rules accounts data) ∧
      (∀ e, outcome = .error e ↔
        ∃ c r, FirstBroken cs c r ∧ r.code = c.code ∧ e = .refused r) ∧
      cs.map (fun c => c.code.map id ErrorCode.number) =
        [.inl .notEnoughAccountKeys, .inl .invalidAccountData, .inr 6000, .inr 6007, .inr 6010,
          .inr 6018, .inr 6000, .inr 6000, .inr 6000, .inl .invalidInstructionData, .inr 6007,
          .inr 6011, .inr 6011, .inl .incorrectProgramId, .inl .incorrectProgramId, .inr 6012,
          .inr 6009] := by
  intro run outcome cs
  obtain ⟨hhanded, hhost, haccepted, hrefused⟩ := (validate_judged haddress accounts).verdict
    (validate_silent rules accounts data) host caller hused hlimit t
  exact ⟨hhanded, hhost, haccepted, hrefused, rfl⟩

/-- The organization with the number 1 has addresses for the bumps 255 and 254. The lower one is
refused. -/
theorem lower_bump_refused :
    let rules := Ledger.Sample.program.rules
    let views := Ledger.Sample.organizationBurnViews
    let data := Ledger.Sample.organizationBurn.drop 8
    let lower := ((Identity.organization 1).address 254 rules.programs.settlement).toOption.getD []
    let under (accounts : List AccountView) :=
      (runSteps Host.absent [] (validate rules accounts data).steps (.start (.int 5000)) ()).outcome
        (validate rules accounts data)
    (Identity.organization 1).address 254 rules.programs.settlement = .ok lower ∧
      under (views.set 3 { views.getD 3 .absent with key := lower }) =
        .error (.refused (.wrongIdentity .organization)) ∧
      under views = .ok (context rules views data) := by
  intro rules views data lower under
  have hlimit (accounts : List AccountView) :
      (Meter.start (.int 5000)).limit.Covers (0 + (validate rules accounts data).cost) :=
    Meter.start_covers (Int.ofNat_le.2 (validate_priced _ _ _).bounded)
  have hdecode : decode data = .ok ⟨1, 40, "zupy:v1:a:b"⟩ := by decide +kernel
  have haddress : ∀ p, decode data = .ok p → ∃ bump address,
      (Identity.organization p.orgId).address bump rules.programs.settlement = .ok address := by
    intro p hp
    rw [hdecode] at hp
    cases hp
    exact ⟨255, Ledger.Sample.organizationKey, by decide +kernel⟩
  have hverdict (accounts : List AccountView) :=
    organization_verdict rules accounts data haddress Host.absent [] rfl (hlimit accounts) ()
  have hlower : judge (conditions rules
      (views.set 3 { views.getD 3 .absent with key := lower }) data) =
      .error (.wrongIdentity .organization) := by decide +kernel
  have hhighest : judge (conditions rules views data) = .ok () := by decide +kernel
  refine ⟨Outcome.eq_ok_of_isSome (by decide +kernel) _, ?_, ?_⟩
  · obtain ⟨-, -, -, hrefused, -⟩ :=
      hverdict (views.set 3 { views.getD 3 .absent with key := lower })
    obtain ⟨c, hc⟩ := judge_eq_error.1 hlower
    exact (hrefused _).2 ⟨c, _, hc, hc.code, rfl⟩
  · obtain ⟨-, -, haccepted, -⟩ := hverdict views
    exact (haccepted _).2 ⟨judge_eq_ok.1 hhighest, rfl⟩

end OrganizationBurn

end Settlement
