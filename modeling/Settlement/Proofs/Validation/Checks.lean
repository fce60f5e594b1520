import Settlement.Proofs.Script.Calls

/-! When the shared checks succeed. None of them makes a call. -/

namespace Settlement

open Script

namespace Validation

/-- A view that holds a record of the program: owned by it, at the address of the record's own bump,
and initialized. -/
structure Trusted (rules : Rules) (view : AccountView) (record : Record) : Prop where
  decoded : Record.decode view.data = .ok record
  owned : view.owner = rules.programs.settlement
  derived : Identity.configRecord.address record.bump rules.programs.settlement = .ok view.key
  initialized : record.initialized = true

theorem record_silent (rules : Rules) (view : AccountView) : (record rules view).Silent := by
  unfold record
  repeat refine .bind (by simp) fun _ => ?_
  exact .pure _

theorem record_outcome {rules : Rules} {view : AccountView} {r : Record} :
    (record rules view).outcome = .ok r ↔ Trusted rules view r := by
  simp only [record, outcome_bind_eq_ok, outcome_charge, outcome_check_eq_ok,
    outcome_require_eq_ok, outcome_pure, Except.ok.injEq, beq_iff_eq,
    Identity.verify_eq_true_iff, exists_const, true_and]
  constructor
  · rintro ⟨r', hd, ho, ha, hi, rfl⟩
    exact ⟨hd, ho, ha, hi⟩
  · intro h
    exact ⟨r, h.decoded, h.owned, h.derived, h.initialized, rfl⟩

theorem authority_silent (view : AccountView) (key : Bytes) (role : Role) :
    (authority view key role).Silent :=
  .bind (.require _ _) fun _ => .require _ _

theorem authority_outcome {view : AccountView} {key : Bytes} {role : Role} {u : Unit} :
    (authority view key role).outcome = .ok u ↔ view.signer = true ∧ view.key = key := by
  simp [authority, signer, outcome_bind_eq_ok, outcome_require_eq_ok]

theorem identity_silent (rules : Rules) (view : AccountView) (i : Identity) (bump : UInt8)
    (role : Role) : (identity rules view i bump role).Silent :=
  .bind (.require _ _) fun _ => .pure _

theorem identity_outcome {rules : Rules} {view : AccountView} {i : Identity} {bump : UInt8}
    {role : Role} {seeds : Seeds} :
    (identity rules view i bump role).outcome = .ok seeds ↔
      i.address bump rules.programs.settlement = .ok view.key ∧ i.seeds bump = seeds := by
  simp [identity, outcome_bind_eq_ok, outcome_require_eq_ok, Identity.verify_eq_true_iff]

theorem canonicalIdentity_silent (rules : Rules) (view : AccountView) (i : Identity) (role : Role) :
    (canonicalIdentity rules view i role).Silent :=
  .bind (.attempt _) fun _ => .bind (.require _ _) fun _ => .pure _

theorem canonicalIdentity_outcome {rules : Rules} {view : AccountView} {i : Identity} {role : Role}
    {seeds : Seeds} :
    (canonicalIdentity rules view i role).outcome = .ok seeds ↔
      ∃ bump, i.find rules.programs.settlement = .ok (view.key, bump) ∧ i.seeds bump = seeds := by
  simp only [canonicalIdentity, outcome_bind_eq_ok, outcome_attempt, outcome_require_eq_ok,
    outcome_pure, beq_iff_eq, Except.ok.injEq]
  constructor
  · rintro ⟨⟨address, bump⟩, hf, _, rfl, rfl⟩
    refine ⟨bump, ?_, rfl⟩
    cases h : i.find rules.programs.settlement with
    | ok found => simpa [h, derived] using hf
    | error d => simp [h, derived] at hf
  · rintro ⟨bump, hf, rfl⟩
    exact ⟨(view.key, bump), by simp [hf, derived], (), rfl, rfl⟩

theorem mint_silent (rules : Rules) (view : AccountView) (r : Record) :
    (mint rules view r).Silent :=
  .bind (.require _ _) fun _ => .require _ _

theorem mint_outcome {rules : Rules} {view : AccountView} {r : Record} {u : Unit} :
    (mint rules view r).outcome = .ok u ↔
      view.owner = rules.programs.token ∧ view.key = r.mint := by
  simp [mint, outcome_bind_eq_ok, outcome_require_eq_ok]

end Validation
end Settlement
