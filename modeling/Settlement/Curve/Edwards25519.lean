import Settlement.Hash.Sha2

/-! The twisted Edwards curve `-x² + y² = 1 + d x² y²` over the integers modulo `2^255 - 19`: the
encoding of its points in 32 bytes, the points of prime order, and the public key of a seed. -/

namespace Settlement.Edwards25519

def modulus : Nat := 2 ^ 255 - 19

def order : Nat := 2 ^ 252 + 27742317777372353535851937790883648493

/-- The curve's coefficient, `-121665 / 121666`. -/
def coefficient : Nat :=
  37095705934669439343138083508754565189542113879843219016388785533085940283555

/-- The power `base ^ exponent` modulo the field's prime, for an exponent of at most `bits` bits. -/
def power : (bits : Nat) → (base exponent : Nat) → Nat
  | 0, _, _ => 1
  | bits + 1, base, exponent =>
    let rest := power bits (base * base % modulus) (exponent / 2)
    if exponent % 2 = 1 then base * rest % modulus else rest

def inverse (x : Nat) : Nat := power 255 x (modulus - 2)

def sub (x y : Nat) : Nat := (x + (modulus - y)) % modulus

def rootOfMinusOne : Nat := power 255 2 ((modulus - 1) / 4)

def root? (x : Nat) : Option Nat :=
  let r := power 255 x ((modulus + 3) / 8)
  if r * r % modulus = x then some r
  else
    let r := r * rootOfMinusOne % modulus
    if r * r % modulus = x then some r else none

/-- A point as `(x / z, y / z)`, with `t = x y / z`. -/
structure Point where
  x : Nat
  y : Nat
  z : Nat
  t : Nat

namespace Point

def identity : Point := ⟨0, 1, 1, 0⟩

def ofAffine (x y : Nat) : Point := ⟨x, y, 1, x * y % modulus⟩

def add (p q : Point) : Point :=
  let a := sub p.y p.x * sub q.y q.x % modulus
  let b := (p.y + p.x) * (q.y + q.x) % modulus
  let c := p.t * (2 * coefficient % modulus) % modulus * q.t % modulus
  let d := 2 * p.z * q.z % modulus
  let e := sub b a
  let f := sub d c
  let g := (d + c) % modulus
  let h := (b + a) % modulus
  ⟨e * f % modulus, g * h % modulus, f * g % modulus, e * h % modulus⟩

def multiple : (bits : Nat) → (n : Nat) → Point → Point
  | 0, _, _ => identity
  | bits + 1, n, p =>
    let rest := multiple bits (n / 2) (p.add p)
    if n % 2 = 1 then p.add rest else rest

def isIdentity (p : Point) : Bool := p.x == 0 && p.y == p.z

def hasPrimeOrder (p : Point) : Bool :=
  !p.isIdentity && (p.multiple 253 order).isIdentity

/-- Thirty-two bytes hold `y`, with the lowest bit of `x` as the highest bit. -/
def encode (p : Point) : Bytes :=
  let w := inverse p.z
  let x := p.x * w % modulus
  let y := p.y * w % modulus
  Bytes.ofNat 32 (y + x % 2 * 2 ^ 255)

/-- The point of an encoding. A `y` that is not reduced has none. -/
def decode? (bs : Bytes) : Option Point := do
  let n := Bytes.value bs
  let y := n % 2 ^ 255
  guard (bs.length = 32 ∧ y < modulus)
  let yy := y * y % modulus
  let x ← root? (sub yy 1 * inverse ((coefficient * yy + 1) % modulus) % modulus)
  let odd := n / 2 ^ 255
  return ofAffine (if x % 2 = odd then x else sub 0 x) y

def base : Point :=
  ofAffine 15112221349535400772501151409588531511454012693041857206046113283949847762202
    46316835694926478169428394003475163141307993866256225615783033603165251855960

end Point

/-- Thirty-two bytes that are a public key: the encoding of a point of prime order. -/
def isPublicKey (bs : Bytes) : Bool :=
  (Point.decode? bs).any Point.hasPrimeOrder

def multiplier (seed : Bytes) : Nat :=
  Bytes.value ((Sha2.sha512 seed).take 32) % 2 ^ 254 / 8 * 8 + 2 ^ 254

/-- A seed that is not 32 bytes long has no key. -/
def publicKey? (seed : Bytes) : Option Bytes :=
  if seed.length = 32 then some ((Point.base.multiple 255 (multiplier seed)).encode) else none

end Settlement.Edwards25519
