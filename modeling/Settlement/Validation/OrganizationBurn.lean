import Settlement.Validation.Checks

/-! Validation of organization burns. The payload has no bump, so only the canonical address is
accepted. -/

namespace Settlement.OrganizationBurn

open Script

structure Valid where
  record : Record
  payload : OrganizationBurn
  transferAuthority : AccountView
  mint : AccountView
  organization : AccountView
  feePayer : AccountView
  systemProgram : AccountView
  compressedTokenProgram : AccountView
  remaining : List AccountView
  organizationSigner : Seeds

def validate (rules : Rules) (accounts : List AccountView) (data : Bytes) : Script Valid := do
  charge Cost.accountCheck "arity"
  match accounts with
  | authority :: recordView :: mint :: organization :: payer :: system :: compressed :: remaining =>
    let record ← Validation.record rules recordView
    require (!record.paused) .paused
    charge (2 * Cost.accountCheck) "signers"
    Validation.authority authority record.transferAuthority .transferAuthority
    Validation.signer payer .feePayer
    charge (3 * Cost.payloadField) "payload_decode"
    let payload ← check (decode data)
    charge Cost.search "organization_identity"
    let identity := Identity.organization payload.orgId
    let signer ← Validation.canonicalIdentity rules organization identity .organization
    charge (2 * Cost.accountCheck) "mint"
    Validation.mint rules mint record
    charge (2 * Cost.accountCheck) "call_targets"
    let programs := rules.programs
    require (system.key == programs.system) (.wrongTarget .systemProgram)
    require (compressed.key == programs.compressedToken) (.wrongTarget .compressedTokenProgram)
    charge (Cost.payloadField + Cost.memoCheck) "payload_semantics"
    require (payload.amount != 0) .zeroAmount
    check (Memo.check (Text.of payload.memo))
    return ⟨record, payload, authority, mint, organization, payer, system, compressed, remaining,
      signer⟩
  | _ => attempt (refuse (.tooFewAccounts Operation.organizationBurn.minAccounts accounts.length))

end Settlement.OrganizationBurn
