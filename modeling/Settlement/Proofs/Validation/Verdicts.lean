import Settlement.Proofs.Instruction.Payload
import Settlement.Proofs.Ledger.Balances
import Settlement.Proofs.Program.Completion
import Settlement.Proofs.Validation.Accepted
import Settlement.Proofs.Validation.Conditions

/-! The verdicts of validation. Under a limit that is never exceeded, an instruction is accepted if
all its conditions hold, and otherwise refused for the first one that does not. -/

namespace Settlement

open Script Condition

variable {σ : Type}

/-- A script without calls leaves the host alone, and its own outcome is that of the run. -/
theorem Script.Silent.run {α : Type} {s : Script α} (h : s.Silent) (host : Host σ) (caller : Bytes)
    {m : Meter} {used : Int} (hused : m.used = .int used) (hlimit : m.limit.Covers (used + s.cost))
    (t : σ) :
    let run := runSteps host caller s.steps m t
    run.outcome s = s.outcome ∧ run.handed = [] ∧ run.host = t := by
  intro run
  have hnone : stepCalls s.steps = [] := by
    rw [← calls_eq_stepCalls]
    exact h
  rw [cost_eq_stepPrice] at hlimit
  have ends : host.Ends caller (stepCalls s.steps) t none := by
    rw [hnone]
    exact .nil
  have hfault : run.fault = none := runSteps_of_ends s.steps hused hlimit ends
  obtain ⟨x, hx, -⟩ := hlimit
  have ending : Ending host caller (stepCalls s.steps) t run.fault run.handed run.host :=
    runSteps_ending host caller s.steps t ⟨⟨used, hused⟩, ⟨x, hx⟩⟩
  rw [hnone, hfault] at ending
  refine ⟨?_, ?_⟩
  · rw [Run.outcome, hfault]
  · generalize run.handed = handed at ending
    generalize run.host = u at ending
    cases ending with
    | finished settles => exact ⟨rfl, (Host.settles_nil_iff.1 settles).symm⟩

/-- The verdict on a script without calls: its value if all conditions hold, and otherwise the
refusal of the first one that does not. -/
theorem Script.Judged.verdict {α : Type} {s : Script α} {cs : List Condition} {a : α}
    (hjudged : s.Judged cs a) (hsilent : s.Silent) (host : Host σ) (caller : Bytes) {m : Meter}
    {used : Int} (hused : m.used = .int used) (hlimit : m.limit.Covers (used + s.cost)) (t : σ) :
    let run := runSteps host caller s.steps m t
    run.handed = [] ∧ run.host = t ∧
      (∀ v, run.outcome s = .ok v ↔ (∀ c ∈ cs, c.Holds) ∧ v = a) ∧
      ∀ e, run.outcome s = .error e ↔
        ∃ c r, FirstBroken cs c r ∧ r.code = c.code ∧ e = .refused r := by
  intro run
  obtain ⟨houtcome, hhanded, hhost⟩ := hsilent.run host caller hused hlimit t
  have hsame : run.outcome s = s.outcome := houtcome
  rw [hsame]
  exact ⟨hhanded, hhost, fun v => hjudged.outcome_eq_ok, fun e => hjudged.outcome_eq_error⟩

/-- What stands in for an account that is not given. -/
def AccountView.absent : AccountView := ⟨systemAddress, .empty, false, false⟩

namespace SplitTransfer

/-- The payload that data holds, if any. -/
def requested (data : Bytes) : SplitTransfer :=
  (decode data).toOption.getD ⟨0, 0, 0, 0, 0, 0, ""⟩

theorem decode_code (data : Bytes) (r : Refusal) (h : decode data = .error r) :
    r.code = .inl .invalidInstructionData :=
  exact_reader.read_eq_error h

/-- The conditions of a split transfer, in their order. Its accounts are the transfer authority, the
record, the mint, the user, the organization, the pool, the fee payer, the system program and the
compressed token program. -/
def conditions (rules : Rules) (accounts : List AccountView) (data : Bytes) : List Condition :=
  let view (i : Nat) := accounts.getD i .absent
  let record := Validation.recorded (view 1)
  let p := requested data
  let programs := rules.programs
  let program := programs.settlement
  [.demand (9 ≤ accounts.length) (.tooFewAccounts 9 accounts.length),
    .demand ((view 1).data.length = 363) (.recordLength (view 1).data.length),
    .demand ((view 1).owner = program) .recordOwner,
    .demand (Identity.configRecord.address record.bump program = .ok (view 1).key) .recordAddress,
    .demand (record.initialized = true) .notInitialized,
    .demand (record.paused = false) .paused,
    .demand ((view 0).signer = true) (.unsigned .transferAuthority),
    .demand ((view 0).key = record.transferAuthority) (.wrongAuthority .transferAuthority),
    .readable (decode data) (decode_code data),
    .demand ((Identity.user p.userId).address p.userBump program = .ok (view 3).key)
      (.wrongIdentity .user),
    .demand ((Identity.organization p.orgId).address p.orgBump program = .ok (view 4).key)
      (.wrongIdentity .organization),
    .demand (Identity.incentivePool.address p.poolBump program = .ok (view 5).key)
      (.wrongIdentity .incentivePool),
    .demand ((view 2).owner = programs.token) .mintOwner,
    .demand ((view 2).key = record.mint) .mintKey,
    .demand ((view 8).key = programs.compressedToken) (.wrongProgram .compressedTokenProgram),
    .demand (p.totalAmount ≠ 0) .zeroAmount,
    .demand (Text.of p.operationType ∈ rules.policy.map Prod.fst)
      (.unknownOperation (.ofString p.operationType))]

/-- What validation gives for a split transfer that fulfils them all. -/
def context (accounts : List AccountView) (data : Bytes) : Valid :=
  let view (i : Nat) := accounts.getD i .absent
  let p := requested data
  { record := Validation.recorded (view 1)
    payload := p
    transferAuthority := view 0
    mint := view 2
    user := view 3
    organization := view 4
    incentivePool := view 5
    feePayer := view 6
    systemProgram := view 7
    compressedTokenProgram := view 8
    remaining := accounts.drop 9
    userSigner := (Identity.user p.userId).seeds p.userBump }

theorem validate_judged (rules : Rules) (accounts : List AccountView) (data : Bytes) :
    (validate rules accounts data).Judged (conditions rules accounts data)
      (context accounts data) := by
  have hpayload : (check (decode data)).Judged [.readable (decode data) (decode_code data)]
      (requested data) := .check (decode_code data) _
  refine .bind (.charge _ _) ?_
  split
  · next authority recordView mint user organization pool payer system compressed remaining =>
    refine .held (by simp) (.bind (Validation.record_judged rules recordView) ?_) _
    refine .bind (.require (by simp) _) (.bind (.charge _ _) ?_)
    refine .bind (Validation.authority_judged _ _ _) (.bind (.charge _ _) ?_)
    refine .bind hpayload (.bind (.charge _ _) ?_)
    refine .bind (Validation.identity_judged _ _ _ _ _) ?_
    refine .bind (Validation.identity_judged _ _ _ _ _) ?_
    refine .bind (Validation.identity_judged _ _ _ _ _) (.bind (.charge _ _) ?_)
    refine .bind (Validation.mint_judged _ _ _) (.bind (.charge _ _) ?_)
    refine .bind (.require beq_iff_eq _) (.bind (.charge _ _) ?_)
    exact .bind (.require bne_iff_ne _) (.bind (.require Policy.allows_iff _) (.pure _))
  · next hshort =>
    refine .broken (fun hlength => ?_) _
    have hnine : (accounts.take 9).length = 9 := List.length_take_of_le hlength
    have hwhole := (List.take_append_drop 9 accounts).symm
    generalize accounts.take 9 = front at hnine hwhole
    generalize accounts.drop 9 = rest at hwhole
    match front, hnine with
    | [_, _, _, _, _, _, _, _, _], _ => exact hshort _ _ _ _ _ _ _ _ _ _ hwhole

/-- Validation accepts exactly what fulfils its conditions, with the accounts in their places, the
record, the payload and the capability of the user; and of what it refuses, the first condition that
does not hold is the reason. It makes no call. -/
theorem transfer_verdict (rules : Rules) (accounts : List AccountView) (data : Bytes) (host : Host σ)
    (caller : Bytes) {m : Meter} {used : Int} (hused : m.used = .int used)
    (hlimit : m.limit.Covers (used + (validate rules accounts data).cost)) (t : σ) :
    let run := runSteps host caller (validate rules accounts data).steps m t
    let outcome := run.outcome (validate rules accounts data)
    let cs := conditions rules accounts data
    run.handed = [] ∧ run.host = t ∧
      (∀ v, outcome = .ok v ↔ (∀ c ∈ cs, c.Holds) ∧ v = context accounts data) ∧
      (∀ e, outcome = .error e ↔
        ∃ c r, FirstBroken cs c r ∧ r.code = c.code ∧ e = .refused r) ∧
      cs.map (fun c => c.code.map id ErrorCode.number) =
        [.inl .notEnoughAccountKeys, .inl .invalidAccountData, .inr 6000, .inr 6007, .inr 6010,
          .inr 6018, .inr 6000, .inr 6000, .inl .invalidInstructionData, .inr 6007, .inr 6007,
          .inr 6007, .inr 6011, .inr 6011, .inr 6025, .inr 6012, .inr 6028] := by
  intro run outcome cs
  have hjudged := validate_judged rules accounts data
  obtain ⟨houtcome, hhanded, hhost⟩ :=
    (validate_silent rules accounts data).run host caller hused hlimit t
  have hsame : outcome = (validate rules accounts data).outcome := houtcome
  rw [hsame]
  exact ⟨hhanded, hhost, fun v => hjudged.outcome_eq_ok, fun e => hjudged.outcome_eq_error, rfl⟩

/-- Of a transfer authority that has not signed and a payload that cannot be read, the first is the
reason. With a signature and a payload the instruction is accepted. -/
theorem unsigned_before_unreadable :
    let rules := Ledger.Sample.program.rules
    let views := Ledger.Sample.splitTransferViews
    let unsigned := { views.getD 0 .absent with signer := false } :: views.drop 1
    let under (accounts : List AccountView) (data : Bytes) :=
      (runSteps Host.absent [] (validate rules accounts data).steps (.start (.int 6310)) ()).outcome
        (validate rules accounts data)
    decode [] = .error (.truncated .u64 0) ∧
      under unsigned [] = .error (.refused (.unsigned .transferAuthority)) ∧
      under views (Ledger.Sample.splitTransfer.drop 8) =
        .ok (context views (Ledger.Sample.splitTransfer.drop 8)) := by
  intro rules views unsigned under
  have hlimit (accounts : List AccountView) (data : Bytes) :
      (Meter.start (.int 6310)).limit.Covers (0 + (validate rules accounts data).cost) := by
    have hcost : (validate rules accounts data).cost ≤ 6310 := (validate_priced _ _ _).bounded
    refine ⟨.int 6310, rfl, ?_⟩
    rw [Number.less_int, decide_eq_false_iff_not]
    omega
  refine ⟨rfl, ?_, ?_⟩
  · obtain ⟨-, -, -, hrefused, -⟩ := transfer_verdict rules unsigned [] Host.absent [] rfl
      (hlimit unsigned []) ()
    have hbefore : ∀ c ∈ (conditions rules unsigned []).take 6, c.Holds := by decide +kernel
    refine (hrefused _).2 ⟨_, _, ⟨(conditions rules unsigned []).take 6, _, rfl, hbefore, rfl⟩,
      rfl, rfl⟩
  · obtain ⟨-, -, haccepted, -⟩ := transfer_verdict rules views (Ledger.Sample.splitTransfer.drop 8)
      Host.absent [] rfl (hlimit views _) ()
    exact (haccepted _).2 ⟨by decide +kernel, rfl⟩

end SplitTransfer
end Settlement
