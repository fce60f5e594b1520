import Settlement.Curve.Edwards25519
import Settlement.Text.Basic

/-! Addresses that a program owns: the digest of some seeds and the program's own address, where
that digest is no public key. The search for a bump goes down from 255 and ends at the first
address. -/

namespace Settlement

structure Scheme where
  digest : Bytes → Bytes
  isPublicKey : Bytes → Bool

def Scheme.standard : Scheme := ⟨Sha2.sha256, Edwards25519.isPublicKey⟩

inductive DerivationFault where
  | programLength
  | tooManySeeds (count : Nat)
  | seedTooLong
  | publicKey
  | noBump
deriving DecidableEq

namespace DerivationFault

def message : DerivationFault → Text
  | programLength => Text.of "Program id must be a 32-byte address"
  | tooManySeeds count => Text.of s!"Too many seeds: {count} > 16"
  | seedTooLong => Text.of "Seed longer than 32 bytes"
  | publicKey => Text.of "Derived address lies on the ed25519 curve"
  | noBump => Text.of "Unable to find a viable bump seed"

end DerivationFault

/-- A length that every address has. It does not make bytes an address that exists. -/
def isAddress (bs : Bytes) : Bool := bs.length == 32

/-- The ASCII word `ProgramDerivedAddress`, which ends every message that an address is the digest
of. -/
def derivationMarker : Bytes :=
  [80, 114, 111, 103, 114, 97, 109, 68, 101, 114, 105, 118, 101, 100, 65, 100, 100, 114, 101,
   115, 115]

def derivationMessage (seeds : List Bytes) (program : Bytes) : Bytes :=
  seeds.flatten ++ program ++ derivationMarker

namespace Scheme

variable (scheme : Scheme)

def create (seeds : List Bytes) (program : Bytes) : Except DerivationFault Bytes :=
  let address := scheme.digest (derivationMessage seeds program)
  if !isAddress program then .error .programLength
  else if 16 < seeds.length then .error (.tooManySeeds seeds.length)
  else if seeds.any (32 < ·.length) then .error .seedTooLong
  else if scheme.isPublicKey address then .error .publicKey
  else .ok address

def search (seeds : List Bytes) (program : Bytes) :
    (count : Nat) → Except DerivationFault (Bytes × UInt8)
  | 0 => .error .noBump
  | bump + 1 =>
    match scheme.create (seeds ++ [[UInt8.ofNat bump]]) program with
    | .ok address => .ok (address, UInt8.ofNat bump)
    | .error _ => search seeds program bump

def find (seeds : List Bytes) (program : Bytes) : Except DerivationFault (Bytes × UInt8) :=
  scheme.search seeds program 256

end Scheme

def createAddress (seeds : List Bytes) (program : Bytes) : Except DerivationFault Bytes :=
  Scheme.standard.create seeds program

def findAddress (seeds : List Bytes) (program : Bytes) : Except DerivationFault (Bytes × UInt8) :=
  Scheme.standard.find seeds program

end Settlement
