import Settlement.Number.Instances

/-! Binary64 numbers as exact values, with rounding to the nearest one and ties to the even
significand. -/

namespace Settlement

/-- A binary64 number. A finite one is `significand * 2 ^ exponent` with a sign, where the
significand has 53 bits or the exponent is the least one, `-1074`. -/
inductive Binary64 where
  | nan
  | infinite (negative : Bool)
  | finite (negative : Bool) (significand : Nat) (exponent : Int)
deriving DecidableEq, Repr

namespace Binary64

def zero : Binary64 := .finite false 0 (-1074)

/-- The quotient of two numbers, to the nearest whole one and a half to the even one. -/
def divRound (num den : Nat) : Nat :=
  let q := num / den
  let r := 2 * (num % den)
  if r < den then q else if den < r then q + 1 else q + q % 2

def scaled (num den : Nat) (e : Int) : Nat × Nat :=
  if 0 ≤ e then (num, den * 2 ^ e.toNat) else (num * 2 ^ (-e).toNat, den)

/-- The exponent at which `num / den` has a significand of 53 bits, or the least one. -/
def exponentFor (num den : Nat) : Int :=
  let low := (num.log2 : Int) - den.log2 - 53
  let (n, d) := scaled num den low
  max (if n / d < 2 ^ 53 then low else low + 1) (-1074)

def ofQuotient (negative : Bool) (num den : Nat) : Binary64 :=
  if num = 0 then .finite negative 0 (-1074)
  else
    let e := exponentFor num den
    let (n, d) := scaled num den e
    let m := divRound n d
    let (m, e) := if m = 2 ^ 53 then (2 ^ 52, e + 1) else (m, e)
    if 971 < e then .infinite negative else .finite negative m e

def ofInt (n : Int) : Binary64 := ofQuotient (n < 0) n.natAbs 1

/-- The number nearest to `n * 2 ^ e`. -/
def ofScaled (negative : Bool) (n : Nat) (e : Int) : Binary64 :=
  if 0 ≤ e then ofQuotient negative (n * 2 ^ e.toNat) 1
  else ofQuotient negative n (2 ^ (-e).toNat)

/-- The number nearest to `digits * 10 ^ exponent`. The bounds on the exponent keep clear of powers
that no binary64 number needs. -/
def ofDecimal (negative : Bool) (digits : Nat) (exponent : Int) : Binary64 :=
  if digits = 0 then .finite negative 0 (-1074)
  else
    let size := exponent + (toString digits).length
    if 400 < size then .infinite negative
    else if size < -400 then .finite negative 0 (-1074)
    else if 0 ≤ exponent then ofQuotient negative (digits * 10 ^ exponent.toNat) 1
    else ofQuotient negative digits (10 ^ (-exponent).toNat)

def signed (negative : Bool) (n : Nat) : Int := if negative then -n else n

/-- The value in units of `2 ^ unit`, for a unit no larger than the number's own. -/
def inUnits (negative : Bool) (m : Nat) (e unit : Int) : Int :=
  signed negative (m * 2 ^ (e - unit).toNat)

/-- The sum, rounded. A sum of exactly zero is negative only if both summands are. -/
def add : Binary64 → Binary64 → Binary64
  | .nan, _ | _, .nan => .nan
  | .infinite s, .infinite t => if s = t then .infinite s else .nan
  | .infinite s, .finite .. => .infinite s
  | .finite .., .infinite t => .infinite t
  | .finite s m e, .finite t n f =>
    let unit := min e f
    let sum := inUnits s m e unit + inUnits t n f unit
    ofScaled (if sum = 0 then s && t else sum < 0) sum.natAbs unit

def neg : Binary64 → Binary64
  | .nan => .nan
  | .infinite s => .infinite !s
  | .finite s m e => .finite (!s) m e

def sub (x y : Binary64) : Binary64 := x.add y.neg

/-- The order of the values. Nothing compares with what is not a number. -/
def compare? : Binary64 → Binary64 → Option Ordering
  | .nan, _ | _, .nan => none
  | .infinite s, .infinite t => some (compare t s)
  | .infinite s, .finite .. => some (if s then .lt else .gt)
  | .finite .., .infinite t => some (if t then .gt else .lt)
  | .finite s m e, .finite t n f =>
    let unit := min e f
    some (compare (inUnits s m e unit) (inUnits t n f unit))

/-- A whole number as an exact value of the same kind, of any size. -/
def exactly (n : Int) : Binary64 := .finite (n < 0) n.natAbs 0

def truncate (negative : Bool) (m : Nat) (e : Int) : Int :=
  signed negative (if 0 ≤ e then m * 2 ^ e.toNat else m / 2 ^ (-e).toNat)

end Binary64
end Settlement
