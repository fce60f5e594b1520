import Settlement.Account.Record
import Settlement.Json.Fields

/-! A configuration record as an object: its keys in hexadecimal, its numbers and flags as they are.
-/

namespace Settlement

open Json

namespace Record

/-- A field's value as it is given: hexadecimal text is bytes. -/
inductive Entry where
  | bytes (bs : Bytes)
  | plain (v : Value)

namespace Entry

def ofValue (v : Value) : Outcome Entry :=
  match v with
  | .text _ => v.hex.map bytes
  | _ => .ok (plain v)

def key : Entry → Outcome Bytes
  | bytes bs => .ok bs
  | plain _ => .error .fieldRange

def int : Entry → Outcome Int
  | bytes _ => .error .fieldRange
  | plain v => v.fieldInt

def flag : Entry → Bool
  | bytes bs => !bs.isEmpty
  | plain v => v.truthy

end Entry

def names : List String :=
  ["treasury", "secondary_authority", "transfer_authority", "pool_account", "distribution_pool",
   "incentive_pool", "treasury_account", "mint", "initialized", "self_bump", "per_tx_auto_limit",
   "daily_auto_limit", "daily_minted", "last_reset_timestamp", "paused", "discriminator"]

abbrev Entries := List (Text × Entry)

/-- The fields that are given. Their kinds are judged later. -/
def entries (fields : Fields) : Outcome Entries := do
  let entries ← fields.mapM fun (name, v) => do return (name, ← Entry.ofValue v)
  fields.known names
  return entries

/-- A missing field is as in the blank record. -/
def ofEntries (entries : Entries) : Outcome Record := do
  let part {α : Type} (name : String) (read : Entry → Outcome α) (default : α) : Outcome α :=
    match field? (Text.of name) entries with
    | some e => read e
    | none => .ok default
  let key (name : String) (default : Bytes) := part name Entry.key default
  let int (name : String) := part name Entry.int 0
  let flag (name : String) := part name (fun e => .ok e.flag) false
  return {
    treasury := ← key "treasury" blank.treasury
    secondaryAuthority := ← key "secondary_authority" blank.secondaryAuthority
    transferAuthority := ← key "transfer_authority" blank.transferAuthority
    poolAccount := ← key "pool_account" blank.poolAccount
    distributionPool := ← key "distribution_pool" blank.distributionPool
    incentivePool := ← key "incentive_pool" blank.incentivePool
    treasuryAccount := ← key "treasury_account" blank.treasuryAccount
    mint := ← key "mint" blank.mint
    initialized := ← flag "initialized"
    selfBump := ← int "self_bump"
    perTxAutoLimit := ← int "per_tx_auto_limit"
    dailyAutoLimit := ← int "daily_auto_limit"
    dailyMinted := ← int "daily_minted"
    lastResetTimestamp := ← int "last_reset_timestamp"
    paused := ← flag "paused"
    discriminator := ← key "discriminator" blank.discriminator }

def toValue (r : Record) : Value :=
  .object (names.map Text.of |>.zip
    [.ofHex r.treasury, .ofHex r.secondaryAuthority, .ofHex r.transferAuthority,
     .ofHex r.poolAccount, .ofHex r.distributionPool, .ofHex r.incentivePool,
     .ofHex r.treasuryAccount, .ofHex r.mint, .bool r.initialized, .int r.selfBump,
     .int r.perTxAutoLimit, .int r.dailyAutoLimit, .int r.dailyMinted, .int r.lastResetTimestamp,
     .bool r.paused, .ofHex r.discriminator])

end Record
end Settlement
