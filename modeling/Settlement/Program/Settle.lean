import Settlement.Validation.SplitTransfer
import Settlement.Validation.DirectBurn
import Settlement.Validation.OrganizationBurn

/-! The scripts of the three operations: validation, then the calls that settle them. Calls forward
the accounts that the operation does not name. -/

namespace Settlement

structure Settled where
  calls : List Call
  allocation : Option Allocation
  summary : Text
deriving DecidableEq

namespace Script

def issue (calls : List Call) : Script Unit :=
  ⟨calls.flatMap fun c => [.charge Cost.call c.kind.name, .call c], .ok ()⟩

end Script

open Script

namespace SplitTransfer

def Valid.leg (v : Valid) (destination : AccountView) (amount : Json.Value) : Call where
  program := v.compressedTokenProgram.key
  kind := .compressedTransfer
  accounts := [.payer v.feePayer.key, .signing v.user.key, .reading destination.key,
    .reading v.systemProgram.key]
  amount := amount
  signers := [v.userSigner]
  remaining := v.remaining.map .ofView

/-- First the leg to the organization, then the leg to the pool. -/
def Valid.calls (v : Valid) (a : Allocation) : List Call :=
  [v.leg v.organization a.toOrganization, v.leg v.incentivePool a.toPool]

def script (rules : Rules) (accounts : List AccountView) (data : Bytes) : Script Settled := do
  let v ← validate rules accounts data
  charge Cost.splitCalculation "split_calculation"
  let p := v.payload
  let total := Json.Value.int p.totalAmount.toNat
  let allocation ← attempt (rules.policy.allocate (.ofString p.operationType) total)
  issue (v.calls allocation)
  return ⟨v.calls allocation, some allocation,
    Text.of s!"Split transfer user={p.userId} org={p.orgId} total={p.totalAmount}" ++
      Text.of " org_leg=" ++ allocation.toOrganization.display ++
      Text.of " pool_leg=" ++ allocation.toPool.display⟩

end SplitTransfer

namespace DirectBurn

/-- The owner signs the instruction, so no capability is lent. -/
def Valid.call (v : Valid) : Call where
  program := v.tokenProgram.key
  kind := .tokenBurn
  accounts := [.writing v.tokenAccount.key, .writing v.mint.key, .signing v.tokenAccountOwner.key]
  amount := .int v.payload.amount.toNat
  signers := []
  remaining := []

def script (rules : Rules) (accounts : List AccountView) (data : Bytes) : Script Settled := do
  let v ← validate rules accounts data
  issue [v.call]
  return ⟨[v.call], none,
    Text.of s!"Burned {v.payload.amount} from " ++ Signal.shortKey v.tokenAccount.key ++
      Text.of s!" ({v.payload.memo})"⟩

end DirectBurn

namespace OrganizationBurn

def Valid.call (v : Valid) : Call where
  program := v.compressedTokenProgram.key
  kind := .compressedBurn
  accounts := [.payer v.feePayer.key, .signing v.organization.key, .writing v.mint.key,
    .reading v.systemProgram.key]
  amount := .int v.payload.amount.toNat
  signers := [v.organizationSigner]
  remaining := v.remaining.map .ofView

def script (rules : Rules) (accounts : List AccountView) (data : Bytes) : Script Settled := do
  let v ← validate rules accounts data
  issue [v.call]
  return ⟨[v.call], none,
    Text.of s!"Burned {v.payload.amount} from org {v.payload.orgId} ({v.payload.memo})"⟩

end OrganizationBurn

def Operation.script (rules : Rules) : Operation → List AccountView → Bytes → Script Settled
  | .splitTransfer => SplitTransfer.script rules
  | .directBurn => DirectBurn.script rules
  | .organizationBurn => OrganizationBurn.script rules

end Settlement
