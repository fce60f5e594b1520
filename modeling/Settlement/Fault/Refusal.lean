import Settlement.Fault.Signal

/-! Why an instruction is refused, cause by cause, with the signal of each. -/

namespace Settlement

inductive Role where
  | transferAuthority
  | treasuryAuthority
  | tokenAccountOwner
  | feePayer
  | user
  | organization
  | incentivePool
  | systemProgram
  | tokenProgram
  | compressedTokenProgram
deriving DecidableEq

def Role.name : Role → String
  | transferAuthority => "Transfer authority"
  | treasuryAuthority => "Treasury authority"
  | tokenAccountOwner => "Token account owner"
  | feePayer => "Fee payer"
  | user => "User identity"
  | organization => "Organization identity"
  | incentivePool => "Incentive pool identity"
  | systemProgram => "System program"
  | tokenProgram => "Token program"
  | compressedTokenProgram => "Compressed token program"

inductive Part where
  | u64
  | u8
  | stringLength
  | string
deriving DecidableEq

def Part.name : Part → String
  | u64 => "u64"
  | u8 => "u8"
  | stringLength => "string length"
  | string => "string"

inductive Refusal where
  | shortInstruction
  | unknownDiscriminator (found : Bytes)
  | outOfCompute (used limit : Number) (label : Text)
  | tooFewAccounts (required given : Nat)
  | recordLength (given : Nat)
  | recordOwner
  | recordAddress
  | notInitialized
  | paused
  | unsigned (role : Role)
  | wrongAuthority (role : Role)
  | truncated (part : Part) (offset : Number)
  | notUtf8 (offset : Number)
  | wrongIdentity (role : Role)
  | mintOwner
  | mintKey
  | tokenAccountOwner
  | tokenAccountLength
  | tokenAccountMint
  | wrongProgram (role : Role)
  | wrongTarget (role : Role)
  | zeroAmount
  | unknownOperation (name : Json.Value)
  | memoFormat (memo : Text)
  | lowBalance (balance requested : Nat)
  | zeroTotal
  | negativeLeg
  | legTooLarge
  | legsDiffer
  | noHandler (kind : Text) (program : Bytes)
deriving DecidableEq

namespace Refusal

def code : Refusal → HostKind ⊕ ErrorCode
  | shortInstruction | unknownDiscriminator _ | truncated .. | notUtf8 _ =>
    .inl .invalidInstructionData
  | outOfCompute .. => .inl .computeBudgetExceeded
  | tooFewAccounts .. => .inl .notEnoughAccountKeys
  | recordLength _ | tokenAccountLength => .inl .invalidAccountData
  | wrongTarget _ | noHandler .. => .inl .incorrectProgramId
  | recordOwner | unsigned _ | wrongAuthority _ | tokenAccountOwner => .inr .invalidAuthority
  | recordAddress | wrongIdentity _ => .inr .invalidPda
  | notInitialized => .inr .notInitialized
  | paused => .inr .systemPaused
  | mintOwner | mintKey | tokenAccountMint => .inr .invalidMint
  | wrongProgram _ => .inr .invalidTokenProgram
  | zeroAmount | zeroTotal => .inr .zeroAmount
  | unknownOperation _ => .inr .invalidOperationType
  | memoFormat _ => .inr .invalidMemoFormat
  | lowBalance .. => .inr .insufficientBalance
  | negativeLeg | legTooLarge | legsDiffer => .inr .splitCalculationError

def message : Refusal → Text
  | shortInstruction => Text.of "Instruction data shorter than discriminator"
  | unknownDiscriminator found =>
    Text.of "Unknown discriminator: " ++ Text.ofChars (Hex.encode found)
  | outOfCompute used limit label =>
    Text.of "Out of compute: " ++ used.display ++ Text.of "/" ++ limit.display ++
      Text.of " (operation: " ++ label ++ Text.of ")"
  | tooFewAccounts required given => Text.of s!"Expected at least {required} accounts, got {given}"
  | recordLength given => Text.of s!"Configuration record must be 363 bytes, got {given}"
  | recordOwner => Text.of "Configuration record not owned by program"
  | recordAddress => Text.of "Configuration record address mismatch"
  | notInitialized => Text.of "Ledger not initialized"
  | paused => Text.of "Ledger is paused"
  | unsigned role => Text.of s!"{role.name} must sign"
  | wrongAuthority role => Text.of s!"{role.name} does not match configuration"
  | truncated part offset =>
    Text.of s!"{part.name} at offset " ++ offset.display ++ Text.of " is truncated"
  | notUtf8 offset => Text.of "string at offset " ++ offset.display ++ Text.of " is not valid UTF-8"
  | wrongIdentity role => Text.of s!"{role.name} address mismatch"
  | mintOwner => Text.of "Mint not owned by token program"
  | mintKey => Text.of "Mint does not match configuration"
  | tokenAccountOwner => Text.of "Token account not owned by token program"
  | tokenAccountLength => Text.of "Token account data too short"
  | tokenAccountMint => Text.of "Token account mint mismatch"
  | wrongProgram role | wrongTarget role => Text.of s!"{role.name} is not the expected program"
  | zeroAmount => Text.of "Amount must be nonzero"
  | unknownOperation name => Text.of "Unknown operation type: " ++ name.nested
  | memoFormat memo => Text.of "Invalid memo format: " ++ memo.quoted
  | lowBalance balance requested => Text.of s!"Balance {balance} is below requested {requested}"
  | zeroTotal => Text.of "Split total must be nonzero"
  | negativeLeg => Text.of "Negative split leg"
  | legTooLarge => Text.of "Split leg exceeds u64"
  | legsDiffer => Text.of "Split legs do not sum to total"
  | noHandler kind program =>
    Text.of "No " ++ kind ++ Text.of " handler at " ++ Signal.shortKey program

def signal (r : Refusal) : Signal :=
  match r.code with
  | .inl kind => .host kind (.text r.message)
  | .inr code => .domain code (.text r.message)

end Refusal
end Settlement
