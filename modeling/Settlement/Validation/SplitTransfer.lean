import Settlement.Validation.Checks

/-! Validation of split transfers. -/

namespace Settlement.SplitTransfer

open Script

structure Valid where
  record : Record
  payload : SplitTransfer
  transferAuthority : AccountView
  mint : AccountView
  user : AccountView
  organization : AccountView
  incentivePool : AccountView
  feePayer : AccountView
  systemProgram : AccountView
  compressedTokenProgram : AccountView
  remaining : List AccountView
  userSigner : Seeds

def validate (rules : Rules) (accounts : List AccountView) (data : Bytes) : Script Valid := do
  charge Cost.accountCheck "arity"
  match accounts with
  | authority :: recordView :: mint :: user :: organization :: pool :: payer :: system ::
      compressed :: remaining =>
    let record ← Validation.record rules recordView
    require (!record.paused) .paused
    charge Cost.accountCheck "transfer_authority"
    Validation.authority authority record.transferAuthority .transferAuthority
    charge (7 * Cost.payloadField) "payload_decode"
    let payload ← check (decode data)
    charge (3 * Cost.derivation) "secondary_identities"
    let p := payload
    let userSigner ← Validation.identity rules user (.user p.userId) p.userBump .user
    let _ ← Validation.identity rules organization (.organization p.orgId) p.orgBump .organization
    let _ ← Validation.identity rules pool .incentivePool p.poolBump .incentivePool
    charge (2 * Cost.accountCheck) "mint"
    Validation.mint rules mint record
    charge Cost.accountCheck "compressed_token_program"
    let token := rules.programs.compressedToken
    require (compressed.key == token) (.wrongProgram .compressedTokenProgram)
    charge (2 * Cost.payloadField) "payload_semantics"
    require (payload.totalAmount != 0) .zeroAmount
    let type := Json.Value.ofString payload.operationType
    require (rules.policy.allows type) (.unknownOperation type)
    return ⟨record, payload, authority, mint, user, organization, pool, payer, system, compressed,
      remaining, userSigner⟩
  | _ => attempt (refuse (.tooFewAccounts Operation.splitTransfer.minAccounts accounts.length))

end Settlement.SplitTransfer
