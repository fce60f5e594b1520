import Settlement.Instruction.Cursor
import Settlement.Instruction.Operation

/-! The payloads of the three operations, with their readers and writers. -/

namespace Settlement

def encodeString (s : String) : Outcome Bytes := do
  let raw := Utf8.encode s
  return (← Field.unsigned 4 raw.length) ++ raw

def encodeU64 (n : UInt64) : Bytes := Bytes.ofNat 8 n.toNat

structure SplitTransfer where
  userId : UInt64
  orgId : UInt64
  totalAmount : UInt64
  userBump : UInt8
  orgBump : UInt8
  poolBump : UInt8
  operationType : String
deriving DecidableEq

structure DirectBurn where
  amount : UInt64
  memo : String
deriving DecidableEq

structure OrganizationBurn where
  orgId : UInt64
  amount : UInt64
  memo : String
deriving DecidableEq

namespace SplitTransfer

def reader : Cursor.Reader SplitTransfer := do
  let userId ← Cursor.u64
  let orgId ← Cursor.u64
  let totalAmount ← Cursor.u64
  let userBump ← Cursor.u8
  let orgBump ← Cursor.u8
  let poolBump ← Cursor.u8
  let operationType ← Cursor.string
  return ⟨userId, orgId, totalAmount, userBump, orgBump, poolBump, operationType⟩

def decode : Bytes → Except Refusal SplitTransfer := Cursor.read reader

def encode (p : SplitTransfer) : Outcome Bytes := do
  return encodeU64 p.userId ++ encodeU64 p.orgId ++ encodeU64 p.totalAmount ++
    [p.userBump, p.orgBump, p.poolBump] ++ (← encodeString p.operationType)

end SplitTransfer

namespace DirectBurn

def reader : Cursor.Reader DirectBurn := do
  let amount ← Cursor.u64
  let memo ← Cursor.string
  return ⟨amount, memo⟩

def decode : Bytes → Except Refusal DirectBurn := Cursor.read reader

def encode (p : DirectBurn) : Outcome Bytes := do
  return encodeU64 p.amount ++ (← encodeString p.memo)

end DirectBurn

namespace OrganizationBurn

def reader : Cursor.Reader OrganizationBurn := do
  let orgId ← Cursor.u64
  let amount ← Cursor.u64
  let memo ← Cursor.string
  return ⟨orgId, amount, memo⟩

def decode : Bytes → Except Refusal OrganizationBurn := Cursor.read reader

def encode (p : OrganizationBurn) : Outcome Bytes := do
  return encodeU64 p.orgId ++ encodeU64 p.amount ++ (← encodeString p.memo)

end OrganizationBurn

inductive Payload where
  | splitTransfer (p : SplitTransfer)
  | directBurn (p : DirectBurn)
  | organizationBurn (p : OrganizationBurn)
deriving DecidableEq

namespace Payload

def operation : Payload → Operation
  | splitTransfer _ => .splitTransfer
  | directBurn _ => .directBurn
  | organizationBurn _ => .organizationBurn

def decode : Operation → Bytes → Except Refusal Payload
  | .splitTransfer, data => (SplitTransfer.decode data).map splitTransfer
  | .directBurn, data => (DirectBurn.decode data).map directBurn
  | .organizationBurn, data => (OrganizationBurn.decode data).map organizationBurn

def encode : Payload → Outcome Bytes
  | splitTransfer p => p.encode
  | directBurn p => p.encode
  | organizationBurn p => p.encode

def instruction (p : Payload) : Outcome Bytes := do
  return p.operation.discriminator ++ (← p.encode)

end Payload
end Settlement
