import Settlement.Address.Derivation

/-! The identities that have derived addresses: users and organizations by number, the incentive
pool, and the configuration record. -/

namespace Settlement

inductive Identity where
  | user (id : UInt64)
  | organization (id : UInt64)
  | incentivePool
  | configRecord
deriving DecidableEq

/-- The capability to sign for an identity: the seeds of its address. -/
abbrev Seeds := List Bytes

namespace Identity

/-- The ASCII words `user`, `company`, `incentive_pool` and `token_state`. -/
def tag : Identity → Bytes
  | user _ => [117, 115, 101, 114]
  | organization _ => [99, 111, 109, 112, 97, 110, 121]
  | incentivePool => [105, 110, 99, 101, 110, 116, 105, 118, 101, 95, 112, 111, 111, 108]
  | configRecord => [116, 111, 107, 101, 110, 95, 115, 116, 97, 116, 101]

def components : Identity → List Bytes
  | user id | organization id => [Bytes.ofNat 8 id.toNat]
  | incentivePool | configRecord => []

def path (i : Identity) : Seeds := i.tag :: i.components

def seeds (i : Identity) (bump : UInt8) : Seeds := i.path ++ [[bump]]

def address (i : Identity) (bump : UInt8) (program : Bytes) : Except DerivationFault Bytes :=
  createAddress (i.seeds bump) program

/-- The highest bump that has an address, and that address. -/
def find (i : Identity) (program : Bytes) : Except DerivationFault (Bytes × UInt8) :=
  findAddress i.path program

/-- Derives with the given bump and compares. An address that only another bump has is refused. -/
def verify (i : Identity) (bump : UInt8) (program key : Bytes) : Bool :=
  match i.address bump program with
  | .ok address => address == key
  | .error _ => false

theorem verify_eq_true_iff {i : Identity} {bump : UInt8} {program key : Bytes} :
    i.verify bump program key = true ↔ i.address bump program = .ok key := by
  simp only [verify]
  split
  · next h => simp [h]
  · next h => simp [h]

end Identity
end Settlement
