import Settlement.Account.View
import Settlement.Address.Identity

/-! Calls into the programs that hold the balances. -/

namespace Settlement

inductive CallKind where
  | compressedTransfer
  | compressedBurn
  | tokenBurn
  | unknown (name : Text)
deriving DecidableEq

namespace CallKind

def name : CallKind → Text
  | compressedTransfer => Text.of "compressed_transfer"
  | compressedBurn => Text.of "compressed_burn"
  | tokenBurn => Text.of "token_burn"
  | unknown name => name

def ofName (name : Text) : CallKind :=
  if name = compressedTransfer.name then compressedTransfer
  else if name = compressedBurn.name then compressedBurn
  else if name = tokenBurn.name then tokenBurn
  else unknown name

theorem name_ofName (name : Text) : (ofName name).name = name := by
  simp only [ofName]
  repeat' split
  all_goals simp_all [CallKind.name]

end CallKind

/-- A call. `accounts` are those the callee needs, in their roles, and `signers` the capabilities
that the caller lends it. -/
structure Call where
  program : Bytes
  kind : CallKind
  accounts : List AccountMeta
  amount : Json.Value
  signers : List Seeds
  remaining : List AccountMeta
deriving DecidableEq

end Settlement
