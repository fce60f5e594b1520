import Settlement.Proofs.Address.Search
import Settlement.Proofs.Address.Separation
import Settlement.Proofs.Ledger.Transaction
import Settlement.Proofs.Validation.Accepted

/-! The one address that burns of an organization are accepted at. The search ends at the highest
bump that has an address, and the addresses of all lower bumps are refused. Only where two messages
have the same digest could a lower bump lead to the accepted address as well. -/

namespace Settlement

open Script

namespace Identity

variable {i : Identity} {program key : Bytes} {bump other : UInt8}

/-- What the address for a bump is the digest of. -/
def digest (i : Identity) (bump : UInt8) (program : Bytes) : Bytes :=
  Sha2.sha256 (derivationMessage (i.seeds bump) program)

/-- Two bumps give two messages with the same digest. -/
def Collides (i : Identity) (bump other : UInt8) (program : Bytes) : Prop :=
  derivationMessage (i.seeds bump) program ≠ derivationMessage (i.seeds other) program ∧
    i.digest bump program = i.digest other program

theorem address_eq_ok (h : i.address bump program = .ok key) :
    isAddress program = true ∧ i.digest bump program = key :=
  let ⟨hprogram, _, _, hdigest⟩ := Scheme.create_eq_ok h
  ⟨hprogram, hdigest⟩

theorem collides_of_address (h : i.address bump program = .ok key)
    (hother : i.address other program = .ok key) (hne : bump ≠ other) :
    i.Collides bump other program := by
  obtain ⟨hprogram, hdigest⟩ := address_eq_ok h
  obtain ⟨-, hsame⟩ := address_eq_ok hother
  refine ⟨fun hmessage => hne ?_, hdigest.trans hsame.symm⟩
  let derivation (b : UInt8) : Derivation := ⟨i, b, program, hprogram⟩
  have heq : derivation bump = derivation other := Derivation.message_inj hmessage
  exact congrArg Derivation.bump heq

/-- No bump has an address exactly if the program has none itself or every digest is a public key.
-/
theorem unaddressed_iff : (∀ bump, ∃ e, i.address bump program = .error e) ↔
    program.length ≠ 32 ∨ ∀ bump, Edwards25519.isPublicKey (i.digest bump program) = true := by
  by_cases hlength : program.length = 32
  · have hprogram : isAddress program = true := beq_iff_eq.2 hlength
    have haddress (bump : UInt8) : i.address bump program =
        if Edwards25519.isPublicKey (i.digest bump program) then .error .publicKey
        else .ok (i.digest bump program) := Derivation.address_eq ⟨i, bump, program, hprogram⟩
    simp only [hlength, ne_eq, not_true_eq_false, false_or]
    refine forall_congr' fun bump => ?_
    rw [haddress]
    generalize Edwards25519.isPublicKey (i.digest bump program) = isPublic
    cases isPublic <;> simp
  · refine iff_of_true (fun bump => Outcome.exists_error_iff.2 fun key h => hlength ?_)
      (.inl hlength)
    exact beq_iff_eq.1 (address_eq_ok h).1

end Identity

namespace Validation

variable {rules : Rules} {i : Identity} {key : Bytes} {bump : UInt8}

theorem canonicalIdentity_of_find (h : i.find rules.programs.settlement = .ok (key, bump))
    (view : AccountView) (role : Role) : (canonicalIdentity rules view i role).outcome =
      if view.key = key then .ok (i.seeds bump) else refuse (.wrongIdentity role) := by
  have hfound : (attempt (derived (i.find rules.programs.settlement))).outcome =
      .ok (key, bump) := by
    rw [outcome_attempt, h]
    rfl
  refine (outcome_bind_of_ok hfound).trans ?_
  by_cases hkey : view.key = key
  · rw [if_pos hkey]
    exact outcome_bind_of_ok (a := ()) (outcome_require_eq_ok.2 (beq_iff_eq.2 hkey.symm))
  · have hother : (key == view.key) = false := beq_false_of_ne (Ne.symm hkey)
    simp only [if_neg hkey, hother]
    rfl

theorem canonicalIdentity_of_unfound {d : DerivationFault}
    (h : i.find rules.programs.settlement = .error d) (view : AccountView) (role : Role) :
    (canonicalIdentity rules view i role).outcome = .error (.derivation d) := by
  refine outcome_bind_of_error ?_
  rw [outcome_attempt, h]
  rfl

end Validation

namespace OrganizationBurn

/-- What the check of the organization's address gives for a view: the capability to sign for it.
-/
def identified (rules : Rules) (orgId : UInt64) (view : AccountView) : Outcome Seeds :=
  (Validation.canonicalIdentity rules view (.organization orgId) .organization).outcome

theorem identified_of_validate {rules : Rules} {accounts : List AccountView} {data : Bytes}
    {v : Valid} (h : (validate rules accounts data).outcome = .ok v) :
    identified rules v.payload.orgId v.organization = .ok v.organizationSigner := by
  obtain ⟨recordView, accepted⟩ := validate_outcome.1 h
  exact Validation.canonicalIdentity_outcome.2 accepted.organization

/-- Bumps are searched from the highest one down, whatever the digest and the public keys are. The
search ends at the first bump that has an address, and fails only if none has. Validation of burns
therefore accepts an organization at one address at most. At the address of a lower bump it is
refused, unless that bump's message has the digest that the accepted address is. -/
theorem canonical_bump :
    (∀ (scheme : Scheme) (seeds : List Bytes) (program : Bytes),
      let create (bump : UInt8) := scheme.create (seeds ++ [[bump]]) program
      let found := scheme.find seeds program
      (∀ address bump, found = .ok (address, bump) ↔
        create bump = .ok address ∧ ∀ higher, bump < higher → ∃ d, create higher = .error d) ∧
      (∀ d, found = .error d ↔ d = .noBump ∧ ∀ bump, ∃ e, create bump = .error e) ∧
      (16 ≤ seeds.length ∨ (∃ seed ∈ seeds, 32 < seed.length) ∨ program.length ≠ 32 →
        found = .error .noBump)) ∧
    (∀ (rules : Rules) (orgId : UInt64),
      let program := rules.programs.settlement
      let organization := Identity.organization orgId
      ((program.length ≠ 32 ∨
          ∀ bump, Edwards25519.isPublicKey (organization.digest bump program) = true) ∧
        ∀ view, identified rules orgId view = .error (.derivation .noBump)) ∨
      ∃ key bump, organization.find program = .ok (key, bump) ∧
        (∀ view, identified rules orgId view =
          if view.key = key then .ok (organization.seeds bump)
          else refuse (.wrongIdentity .organization)) ∧
        ∀ lower < bump, ∀ other, organization.address lower program = .ok other →
          (∀ view, view.key = other →
            identified rules orgId view = refuse (.wrongIdentity .organization)) ∨
          organization.Collides lower bump program) ∧
    (∀ rules accounts data v, (validate rules accounts data).outcome = .ok v →
      identified rules v.payload.orgId v.organization = .ok v.organizationSigner) ∧
    (Refusal.wrongIdentity .organization).code.map id ErrorCode.number = .inr 6007 := by
  refine ⟨fun scheme seeds program => ?_, fun rules orgId => ?_, ?_, rfl⟩
  · exact ⟨fun _ _ => Scheme.find_eq_ok_iff, fun _ => Scheme.find_eq_error_iff,
      Scheme.find_of_unfit⟩
  · intro program organization
    cases hfind : organization.find program with
    | error d =>
      obtain ⟨rfl, hnone⟩ := Scheme.find_eq_error_iff.1 hfind
      exact .inl ⟨Identity.unaddressed_iff.1 hnone,
        fun view => Validation.canonicalIdentity_of_unfound hfind view _⟩
    | ok found =>
      obtain ⟨key, bump⟩ := found
      have hkey : organization.address bump program = .ok key := Identity.address_of_find hfind
      have hstage (view : AccountView) :=
        Validation.canonicalIdentity_of_find hfind view .organization
      refine .inr ⟨key, bump, rfl, hstage, fun lower hlower other hother => ?_⟩
      by_cases hsame : other = key
      · subst hsame
        exact .inr (Identity.collides_of_address hother hkey (UInt8.ne_of_lt hlower))
      · refine .inl fun view hview => (hstage view).trans (if_neg ?_)
        rwa [hview]
  · exact fun _ _ _ _ => identified_of_validate

/-- The organization with the number 1 has addresses for the bumps 255 and 254, and is accepted at
the first one only. Sixteen seeds leave no place for a bump. -/
theorem higher_bump_accepted :
    let rules := Ledger.Sample.program.rules
    let program := rules.programs.settlement
    let organization := Identity.organization 1
    let lower := (organization.address 254 program).toOption.getD []
    let view (key : Bytes) := (Ledger.Sample.ledger 0).view key false false
    organization.address 254 program = .ok lower ∧
      identified rules 1 (view lower) = refuse (.wrongIdentity .organization) ∧
      identified rules 1 (view Ledger.Sample.organizationKey) = .ok (organization.seeds 255) ∧
      Scheme.standard.find (List.replicate 16 organization.tag) program = .error .noBump := by
  intro rules program organization lower view
  have hkey (key : Bytes) : (view key).key = key := rfl
  have hlower : organization.address 254 program = .ok lower :=
    Outcome.eq_ok_of_isSome (by decide +kernel) _
  have hfind : organization.find program = .ok (Ledger.Sample.organizationKey, 255) := by
    decide +kernel
  have hne : organization.digest 254 program ≠ organization.digest 255 program := by
    decide +kernel
  obtain ⟨hsearch, hstage, -, -⟩ := canonical_bump
  obtain ⟨-, -, hunfit⟩ := hsearch Scheme.standard (List.replicate 16 organization.tag) program
  have hlong := hunfit (.inl (Nat.le_of_eq List.length_replicate.symm))
  rcases hstage rules 1 with ⟨-, hnone⟩ | ⟨key, bump, hfound, haccepted, hrefused⟩
  · have herror := hnone (view Ledger.Sample.organizationKey)
    have hok := Validation.canonicalIdentity_of_find hfind (view Ledger.Sample.organizationKey)
      .organization
    rw [if_pos (hkey _)] at hok
    cases hok.symm.trans herror
  · obtain ⟨rfl, rfl⟩ := Prod.mk.inj (Except.ok.inj (hfind.symm.trans hfound))
    have hok := haccepted (view Ledger.Sample.organizationKey)
    rw [if_pos (hkey _)] at hok
    rcases hrefused 254 (by decide) lower hlower with hother | hcollides
    · exact ⟨hlower, hother (view lower) (hkey lower), hok, hlong⟩
    · exact absurd hcollides.2 hne

end OrganizationBurn
end Settlement
