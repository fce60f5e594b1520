import Settlement.Bytes.Cut
import Settlement.Fault.Basic

/-! Whole numbers in fields of fixed width. -/

namespace Settlement.Field

/-- An unsigned field. A number outside it is a fault. -/
def unsigned (width : Nat) (n : Int) : Outcome Bytes :=
  if 0 ≤ n ∧ n < 256 ^ width then .ok (Bytes.ofNat width n.toNat) else .error .fieldRange

/-- A signed field, in two's complement. -/
def signed (width : Nat) (n : Int) : Outcome Bytes :=
  let half : Int := 256 ^ width / 2
  if -half ≤ n ∧ n < half then .ok (Bytes.ofNat width (n % 256 ^ width).toNat)
  else .error .fieldRange

def readSigned (bs : Bytes) : Int :=
  let n := Bytes.value bs
  if 2 * n < 256 ^ bs.length then n else (n : Int) - 256 ^ bs.length

/-- Eight bytes of an address or an amount. The fault is another one than that of a field. -/
def word (n : Int) : Outcome Bytes :=
  if 0 ≤ n ∧ n < 2 ^ 64 then .ok (Bytes.ofNat 8 n.toNat) else .error .wordRange

def byte (n : Int) : Outcome UInt8 :=
  if 0 ≤ n ∧ n < 256 then .ok (UInt8.ofNat n.toNat) else .error .byteRange

def flag (b : Bool) : Bytes := [if b then 1 else 0]

/-- Any byte but zero is true. -/
def readFlag (bs : Bytes) : Bool := Bytes.value bs != 0

end Settlement.Field
