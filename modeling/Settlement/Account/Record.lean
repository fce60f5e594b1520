import Settlement.Account.Field
import Settlement.Account.View
import Settlement.Hash.Sha2
import Settlement.Text.Utf8

/-! The configuration record: the authorities, the mint and the flags that every instruction is
checked against, in 363 bytes. -/

namespace Settlement

structure Record where
  treasury : Bytes
  secondaryAuthority : Bytes
  transferAuthority : Bytes
  poolAccount : Bytes
  distributionPool : Bytes
  incentivePool : Bytes
  treasuryAccount : Bytes
  mint : Bytes
  initialized : Bool
  selfBump : Int
  perTxAutoLimit : Int
  dailyAutoLimit : Int
  dailyMinted : Int
  lastResetTimestamp : Int
  paused : Bool
  discriminator : Bytes
deriving DecidableEq

namespace Record

/-- The first eight bytes of the digest of `account:TokenState`. -/
def standardDiscriminator : Bytes := [0xda, 0x70, 0x06, 0x95, 0x37, 0xba, 0xa8, 0xa3]

example : (Sha2.sha256 (Utf8.encode "account:TokenState")).take 8 = standardDiscriminator := by
  decide +kernel

def blank : Record where
  treasury := systemAddress
  secondaryAuthority := systemAddress
  transferAuthority := systemAddress
  poolAccount := systemAddress
  distributionPool := systemAddress
  incentivePool := systemAddress
  treasuryAccount := systemAddress
  mint := systemAddress
  initialized := false
  selfBump := 0
  perTxAutoLimit := 0
  dailyAutoLimit := 0
  dailyMinted := 0
  lastResetTimestamp := 0
  paused := false
  discriminator := standardDiscriminator

/-- Discriminator, eight keys, initialized, bump, three limits, timestamp, paused, and a reserve. -/
def widths : List Nat := [8, 32, 32, 32, 32, 32, 32, 32, 32, 1, 1, 8, 8, 8, 8, 1, 64]

def size : Nat := 363

example : widths.sum = size := by decide

def decode (data : Bytes) : Except Refusal Record :=
  if data.length ≠ size then .error (.recordLength data.length)
  else match Bytes.cut widths data with
    | [disc, treasury, secondary, transfer, pool, distribution, incentive, treasuryAccount, mint,
        initialized, bump, perTx, daily, minted, reset, paused, _] =>
      .ok {
        treasury := treasury
        secondaryAuthority := secondary
        transferAuthority := transfer
        poolAccount := pool
        distributionPool := distribution
        incentivePool := incentive
        treasuryAccount := treasuryAccount
        mint := mint
        initialized := Field.readFlag initialized
        selfBump := Bytes.value bump
        perTxAutoLimit := Bytes.value perTx
        dailyAutoLimit := Bytes.value daily
        dailyMinted := Bytes.value minted
        lastResetTimestamp := Field.readSigned reset
        paused := Field.readFlag paused
        discriminator := disc }
    | _ => .error (.recordLength data.length)

/-- Keys of another length are cut off or filled with zeros. Numbers outside their fields are
faults. -/
def encode (r : Record) : Outcome Bytes := do
  let bump ← Field.unsigned 1 r.selfBump
  let perTx ← Field.unsigned 8 r.perTxAutoLimit
  let daily ← Field.unsigned 8 r.dailyAutoLimit
  let minted ← Field.unsigned 8 r.dailyMinted
  let reset ← Field.signed 8 r.lastResetTimestamp
  return [Bytes.fit 8 r.discriminator, Bytes.fit 32 r.treasury, Bytes.fit 32 r.secondaryAuthority,
    Bytes.fit 32 r.transferAuthority, Bytes.fit 32 r.poolAccount, Bytes.fit 32 r.distributionPool,
    Bytes.fit 32 r.incentivePool, Bytes.fit 32 r.treasuryAccount, Bytes.fit 32 r.mint,
    Field.flag r.initialized, bump, perTx, daily, minted, reset, Field.flag r.paused,
    List.replicate 64 0].flatten

def bump (r : Record) : UInt8 := UInt8.ofNat r.selfBump.toNat

end Record
end Settlement
