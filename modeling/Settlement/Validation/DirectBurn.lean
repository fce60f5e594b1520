import Settlement.Validation.Checks

/-! Validation of direct burns. The pause of the record counts only if it gates them. -/

namespace Settlement.DirectBurn

open Script

structure Valid where
  record : Record
  payload : DirectBurn
  authority : AccountView
  mint : AccountView
  tokenAccount : AccountView
  tokenAccountOwner : AccountView
  tokenProgram : AccountView
  source : TokenAccount

def validate (rules : Rules) (accounts : List AccountView) (data : Bytes) : Script Valid := do
  charge Cost.accountCheck "arity"
  match accounts with
  | authority :: recordView :: mint :: tokenAccount :: owner :: tokenProgram :: _ =>
    let record ← Validation.record rules recordView
    require (!(rules.gatesDirectBurn && record.paused)) .paused
    charge (2 * Cost.accountCheck) "signers"
    Validation.authority authority record.treasury .treasuryAuthority
    Validation.signer owner .tokenAccountOwner
    charge (2 * Cost.payloadField) "payload_decode"
    let payload ← check (decode data)
    charge (4 * Cost.accountCheck) "mint"
    Validation.mint rules mint record
    require (tokenAccount.owner == rules.programs.token) .tokenAccountOwner
    require (TokenAccount.size ≤ tokenAccount.data.length) .tokenAccountLength
    let source ← attempt (TokenAccount.decode tokenAccount.data)
    require (source.mint == mint.key) .tokenAccountMint
    charge Cost.accountCheck "token_program"
    require (tokenProgram.key == rules.programs.token) (.wrongProgram .tokenProgram)
    charge (Cost.payloadField + Cost.memoCheck) "payload_semantics"
    require (payload.amount != 0) .zeroAmount
    check (Memo.check (Text.of payload.memo))
    charge Cost.accountCheck "balance"
    require (payload.amount.toNat ≤ source.amount) (.lowBalance source.amount payload.amount.toNat)
    return ⟨record, payload, authority, mint, tokenAccount, owner, tokenProgram, source⟩
  | _ => attempt (refuse (.tooFewAccounts Operation.directBurn.minAccounts accounts.length))

end Settlement.DirectBurn
