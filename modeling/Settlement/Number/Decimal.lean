import Settlement.Number.Binary64

/-! The shortest decimal digits that read back as a given binary64 number. -/

namespace Settlement.Decimal

structure Shortest where
  digits : Nat
  exponent : Int

/-- The fractions `num / den` that round to a binary64 number: from `low` to `high` around `mid`,
all with one denominator. The ends belong to it if `closed`. -/
structure Interval where
  low : Nat
  mid : Nat
  high : Nat
  den : Nat
  closed : Bool

/-- The interval of `m * 2 ^ e`. Below a power of two the neighbour is half as far away. -/
def Interval.of (m : Nat) (e : Int) : Interval :=
  let below := if m = 2 ^ 52 ∧ -1074 < e then 1 else 2
  let (scale, den) := if 0 ≤ e then (2 ^ e.toNat, 4) else (1, 4 * 2 ^ (-e).toNat)
  ⟨(4 * m - below) * scale, 4 * m * scale, (4 * m + 2) * scale, den, m % 2 = 0⟩

def powerOfTen (k : Int) : Nat × Nat :=
  if 0 ≤ k then (10 ^ k.toNat, 1) else (1, 10 ^ (-k).toNat)

def Interval.contains (i : Interval) (digits : Nat) (k : Int) : Bool :=
  let (p, q) := powerOfTen k
  let x := digits * p * i.den
  if i.closed then i.low * q ≤ x && x ≤ i.high * q else i.low * q < x && x < i.high * q

/-- The point of the grid of `10 ^ k` that is in the interval and nearest to its middle. -/
def Interval.nearest? (i : Interval) (k : Int) : Option Nat :=
  let (p, q) := powerOfTen k
  let down := i.mid * q / (p * i.den)
  let rest := 2 * (i.mid * q % (p * i.den))
  let up := down + 1
  let upFirst := p * i.den < rest || (p * i.den == rest && down % 2 == 1)
  let order := if upFirst then [up, down] else [down, up]
  order.find? fun x => x != 0 && i.contains x k

def leadingPlace (num den : Nat) : Int :=
  let guess := ((toString num).length : Int) - (toString den).length
  let (p, q) := powerOfTen guess
  if p * den ≤ num * q then guess else guess - 1

/-- The shortest digits for `m * 2 ^ e`, with `m` positive. Seventeen digits always suffice. -/
def shortest (m : Nat) (e : Int) : Shortest :=
  let i := Interval.of m e
  let place := leadingPlace i.mid i.den
  let found := (List.range 17).findSome? fun (n : Nat) =>
    (i.nearest? (place - n)).map fun digits => Shortest.mk digits (place - n)
  found.getD ⟨m, e⟩

/-- Digits without their trailing zeros. `fuel` bounds the number of digits. -/
def strip : (fuel : Nat) → Shortest → Shortest
  | 0, s => s
  | fuel + 1, s =>
    if s.digits % 10 = 0 ∧ s.digits ≠ 0 then strip fuel ⟨s.digits / 10, s.exponent + 1⟩ else s

def zeros (n : Nat) : List Char := List.replicate n '0'

/-- The text of digits and a place: positional from `1e-4` up to below `1e16`, with a fraction
always, and otherwise with a power of ten of at least two digits. -/
def format (s : Shortest) : List Char :=
  let s := strip 20 s
  let ds := (toString s.digits).toList
  let point := s.exponent + ds.length
  if -4 < point ∧ point ≤ 16 then
    if point ≤ 0 then '0' :: '.' :: zeros (-point).toNat ++ ds
    else if ds.length ≤ point.toNat then ds ++ zeros (point.toNat - ds.length) ++ ['.', '0']
    else ds.take point.toNat ++ '.' :: ds.drop point.toNat
  else
    let power := point - 1
    let lead := ds.take 1 ++ (if ds.length = 1 then [] else '.' :: ds.drop 1)
    let digits := (toString power.natAbs).toList
    let digits := if digits.length < 2 then '0' :: digits else digits
    lead ++ 'e' :: (if power < 0 then '-' else '+') :: digits

def ofFinite (negative : Bool) (m : Nat) (e : Int) : List Char :=
  let body := if m = 0 then ['0', '.', '0'] else format (shortest m e)
  if negative then '-' :: body else body

end Settlement.Decimal
