import Settlement.Text.Basic

/-! The stable codes of refused instructions. Clients match on the numbers and on the host's words.
-/

namespace Settlement

/-- The outcomes with a number, in the order of their numbers from 6000 on. -/
inductive ErrorCode where
  | invalidAuthority
  | dailyLimitExceeded
  | txLimitExceeded
  | alreadyInitialized
  | insufficientBalance
  | invalidAmount
  | rateLimitNotInitialized
  | invalidPda
  | duplicateMemo
  | invalidMemoFormat
  | notInitialized
  | invalidMint
  | zeroAmount
  | invalidMetadataName
  | invalidMetadataSymbol
  | invalidMetadataUri
  | extensionCalculationError
  | invalidPoolAccount
  | systemPaused
  | unauthorizedTreasury
  | exceedsTransactionLimit
  | exceedsDailyLimit
  | invalidTreasuryAccount
  | invalidIncentivePool
  | insufficientPoolBalance
  | invalidTokenProgram
  | notImplemented
  | invalidMetadataPda
  | invalidOperationType
  | splitCalculationError
deriving DecidableEq, Repr

namespace ErrorCode

def all : List ErrorCode :=
  [invalidAuthority, dailyLimitExceeded, txLimitExceeded, alreadyInitialized, insufficientBalance,
   invalidAmount, rateLimitNotInitialized, invalidPda, duplicateMemo, invalidMemoFormat,
   notInitialized, invalidMint, zeroAmount, invalidMetadataName, invalidMetadataSymbol,
   invalidMetadataUri, extensionCalculationError, invalidPoolAccount, systemPaused,
   unauthorizedTreasury, exceedsTransactionLimit, exceedsDailyLimit, invalidTreasuryAccount,
   invalidIncentivePool, insufficientPoolBalance, invalidTokenProgram, notImplemented,
   invalidMetadataPda, invalidOperationType, splitCalculationError]

def number (c : ErrorCode) : Nat := 6000 + all.idxOf c

def ofNumber? (n : Int) : Option ErrorCode := all.find? fun c => (c.number : Int) == n

theorem mem_all (c : ErrorCode) : c ∈ all := by
  cases c <;> decide

theorem ofNumber?_number (c : ErrorCode) : ofNumber? c.number = some c := by
  cases c <;> rfl

def name : ErrorCode → String
  | invalidAuthority => "INVALID_AUTHORITY"
  | dailyLimitExceeded => "DAILY_LIMIT_EXCEEDED"
  | txLimitExceeded => "TX_LIMIT_EXCEEDED"
  | alreadyInitialized => "ALREADY_INITIALIZED"
  | insufficientBalance => "INSUFFICIENT_BALANCE"
  | invalidAmount => "INVALID_AMOUNT"
  | rateLimitNotInitialized => "RATE_LIMIT_NOT_INITIALIZED"
  | invalidPda => "INVALID_PDA"
  | duplicateMemo => "DUPLICATE_MEMO"
  | invalidMemoFormat => "INVALID_MEMO_FORMAT"
  | notInitialized => "NOT_INITIALIZED"
  | invalidMint => "INVALID_MINT"
  | zeroAmount => "ZERO_AMOUNT"
  | invalidMetadataName => "INVALID_METADATA_NAME"
  | invalidMetadataSymbol => "INVALID_METADATA_SYMBOL"
  | invalidMetadataUri => "INVALID_METADATA_URI"
  | extensionCalculationError => "EXTENSION_CALCULATION_ERROR"
  | invalidPoolAccount => "INVALID_POOL_ACCOUNT"
  | systemPaused => "SYSTEM_PAUSED"
  | unauthorizedTreasury => "UNAUTHORIZED_TREASURY"
  | exceedsTransactionLimit => "EXCEEDS_TRANSACTION_LIMIT"
  | exceedsDailyLimit => "EXCEEDS_DAILY_LIMIT"
  | invalidTreasuryAccount => "INVALID_TREASURY_ACCOUNT"
  | invalidIncentivePool => "INVALID_INCENTIVE_POOL"
  | insufficientPoolBalance => "INSUFFICIENT_POOL_BALANCE"
  | invalidTokenProgram => "INVALID_TOKEN_PROGRAM"
  | notImplemented => "NOT_IMPLEMENTED"
  | invalidMetadataPda => "INVALID_METADATA_PDA"
  | invalidOperationType => "INVALID_OPERATION_TYPE"
  | splitCalculationError => "SPLIT_CALCULATION_ERROR"

end ErrorCode

inductive HostKind where
  | notEnoughAccountKeys
  | invalidAccountData
  | invalidInstructionData
  | incorrectProgramId
  | computeBudgetExceeded
deriving DecidableEq, Repr

namespace HostKind

def all : List HostKind :=
  [notEnoughAccountKeys, invalidAccountData, invalidInstructionData, incorrectProgramId,
   computeBudgetExceeded]

def word : HostKind → String
  | notEnoughAccountKeys => "NotEnoughAccountKeys"
  | invalidAccountData => "InvalidAccountData"
  | invalidInstructionData => "InvalidInstructionData"
  | incorrectProgramId => "IncorrectProgramId"
  | computeBudgetExceeded => "ComputeBudgetExceeded"

def name : HostKind → String
  | notEnoughAccountKeys => "NOT_ENOUGH_ACCOUNT_KEYS"
  | invalidAccountData => "INVALID_ACCOUNT_DATA"
  | invalidInstructionData => "INVALID_INSTRUCTION_DATA"
  | incorrectProgramId => "INCORRECT_PROGRAM_ID"
  | computeBudgetExceeded => "COMPUTE_BUDGET_EXCEEDED"

def ofWord? (t : Text) : Option HostKind := all.find? fun k => Text.of k.word == t

end HostKind
end Settlement
