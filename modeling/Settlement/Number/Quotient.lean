import Settlement.Number.Binary64

/-! Products, quotients and remainders of binary64 numbers, and the quotient rounded down. -/

namespace Settlement.Binary64

def isNegative : Binary64 → Bool
  | .nan => false
  | .infinite s => s
  | .finite s _ _ => s

def isZero : Binary64 → Bool
  | .finite _ 0 _ => true
  | _ => false

def mul : Binary64 → Binary64 → Binary64
  | .nan, _ | _, .nan => .nan
  | .infinite s, .infinite t => .infinite (s != t)
  | .infinite s, .finite t m _ | .finite s m _, .infinite t =>
    if m = 0 then .nan else .infinite (s != t)
  | .finite s m e, .finite t n f => ofScaled (s != t) (m * n) (e + f)

def div : Binary64 → Binary64 → Binary64
  | .nan, _ | _, .nan | .infinite _, .infinite _ => .nan
  | .infinite s, .finite t _ _ => .infinite (s != t)
  | .finite s _ _, .infinite t => .finite (s != t) 0 (-1074)
  | .finite s m e, .finite t n f =>
    if n = 0 then if m = 0 then .nan else .infinite (s != t)
    else
      let (num, den) := scaled m n (f - e)
      ofQuotient (s != t) num den

/-- The remainder of the quotient without its fraction. It is exact and has the sign of the
dividend. -/
def rem : Binary64 → Binary64 → Binary64
  | .nan, _ | _, .nan | .infinite _, _ => .nan
  | x@(.finite ..), .infinite _ => x
  | .finite s m e, .finite _ n f =>
    if n = 0 then .nan
    else
      let unit := min e f
      ofScaled s (m * 2 ^ (e - unit).toNat % (n * 2 ^ (f - unit).toNat)) unit

/-- The largest whole number that is not above. -/
def floor : Binary64 → Binary64
  | .finite s m e =>
    if 0 ≤ e then .finite s m e
    else
      let unit := 2 ^ (-e).toNat
      ofScaled s (if s && m % unit != 0 then m / unit + 1 else m / unit) 0
  | x => x

/-- The quotient rounded down: what the remainder leaves of the dividend, divided, one less if the
remainder has another sign than the divisor, and at last brought to the nearest whole number. -/
def floorDiv (x y : Binary64) : Binary64 :=
  let r := x.rem y
  let q := (x.sub r).div y
  let negative := r.compare? zero == some .lt
  let q := if !r.isZero && (y.compare? zero == some .lt) != negative then q.sub (ofInt 1) else q
  if q.isZero then .finite (x.isNegative != y.isNegative) 0 (-1074)
  else
    let low := q.floor
    if (q.sub low).compare? (ofQuotient false 1 2) == some .gt then low.add (ofInt 1) else low

end Settlement.Binary64
