import Settlement.Instruction.Payload
import Settlement.Json.Fields

/-! Payloads as objects with a field for each part. The parts are judged in the order in which they
are written. -/

namespace Settlement

open Json

namespace Payload

def u64Field (name : String) (fields : Fields) : Outcome UInt64 := do
  let n ← (← fields.get name).fieldInt
  let _ ← Field.unsigned 8 n
  return UInt64.ofNat n.toNat

def byteField (name : String) (fields : Fields) : Outcome UInt8 := do
  Field.byte (← (← fields.get name).wholeOr .wrongKind)

def textField (name : String) (fields : Fields) : Outcome String := do
  (← fields.get name).string

end Payload

open Payload

namespace SplitTransfer

def names : List String :=
  ["user_id", "org_id", "total_amount", "user_bump", "org_bump", "pool_bump", "operation_type"]

def ofFields (fields : Fields) : Outcome SplitTransfer := do
  fields.exactly names
  return ⟨← u64Field "user_id" fields, ← u64Field "org_id" fields, ← u64Field "total_amount" fields,
    ← byteField "user_bump" fields, ← byteField "org_bump" fields, ← byteField "pool_bump" fields,
    ← textField "operation_type" fields⟩

def toValue (p : SplitTransfer) : Value :=
  .object (names.map Text.of |>.zip
    [.int p.userId.toNat, .int p.orgId.toNat, .int p.totalAmount.toNat, .int p.userBump.toNat,
     .int p.orgBump.toNat, .int p.poolBump.toNat, .ofString p.operationType])

end SplitTransfer

namespace DirectBurn

def names : List String := ["amount", "memo"]

def ofFields (fields : Fields) : Outcome DirectBurn := do
  fields.exactly names
  return ⟨← u64Field "amount" fields, ← textField "memo" fields⟩

def toValue (p : DirectBurn) : Value :=
  .object (names.map Text.of |>.zip [.int p.amount.toNat, .ofString p.memo])

end DirectBurn

namespace OrganizationBurn

def names : List String := ["org_id", "amount", "memo"]

def ofFields (fields : Fields) : Outcome OrganizationBurn := do
  fields.exactly names
  return ⟨← u64Field "org_id" fields, ← u64Field "amount" fields, ← textField "memo" fields⟩

def toValue (p : OrganizationBurn) : Value :=
  .object (names.map Text.of |>.zip [.int p.orgId.toNat, .int p.amount.toNat, .ofString p.memo])

end OrganizationBurn

namespace Payload

def ofFields : Operation → Fields → Outcome Payload
  | .splitTransfer, fields => (SplitTransfer.ofFields fields).map splitTransfer
  | .directBurn, fields => (DirectBurn.ofFields fields).map directBurn
  | .organizationBurn, fields => (OrganizationBurn.ofFields fields).map organizationBurn

def toValue : Payload → Value
  | splitTransfer p => p.toValue
  | directBurn p => p.toValue
  | organizationBurn p => p.toValue

end Payload
end Settlement
