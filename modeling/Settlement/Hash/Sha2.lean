import Settlement.Bytes.Word

/-! The SHA-2 digests of 32 and of 64 bit words. Both are one construction: the shorter one takes
the high halves of the other's constants, fewer rounds and its own rotations. -/

namespace Settlement.Sha2

/-- The leading 64 bits of the fractional parts of the cube roots of the first eighty primes. -/
def roundConstants : List Nat :=
  [0x428a2f98d728ae22, 0x7137449123ef65cd, 0xb5c0fbcfec4d3b2f, 0xe9b5dba58189dbbc,
   0x3956c25bf348b538, 0x59f111f1b605d019, 0x923f82a4af194f9b, 0xab1c5ed5da6d8118,
   0xd807aa98a3030242, 0x12835b0145706fbe, 0x243185be4ee4b28c, 0x550c7dc3d5ffb4e2,
   0x72be5d74f27b896f, 0x80deb1fe3b1696b1, 0x9bdc06a725c71235, 0xc19bf174cf692694,
   0xe49b69c19ef14ad2, 0xefbe4786384f25e3, 0x0fc19dc68b8cd5b5, 0x240ca1cc77ac9c65,
   0x2de92c6f592b0275, 0x4a7484aa6ea6e483, 0x5cb0a9dcbd41fbd4, 0x76f988da831153b5,
   0x983e5152ee66dfab, 0xa831c66d2db43210, 0xb00327c898fb213f, 0xbf597fc7beef0ee4,
   0xc6e00bf33da88fc2, 0xd5a79147930aa725, 0x06ca6351e003826f, 0x142929670a0e6e70,
   0x27b70a8546d22ffc, 0x2e1b21385c26c926, 0x4d2c6dfc5ac42aed, 0x53380d139d95b3df,
   0x650a73548baf63de, 0x766a0abb3c77b2a8, 0x81c2c92e47edaee6, 0x92722c851482353b,
   0xa2bfe8a14cf10364, 0xa81a664bbc423001, 0xc24b8b70d0f89791, 0xc76c51a30654be30,
   0xd192e819d6ef5218, 0xd69906245565a910, 0xf40e35855771202a, 0x106aa07032bbd1b8,
   0x19a4c116b8d2d0c8, 0x1e376c085141ab53, 0x2748774cdf8eeb99, 0x34b0bcb5e19b48a8,
   0x391c0cb3c5c95a63, 0x4ed8aa4ae3418acb, 0x5b9cca4f7763e373, 0x682e6ff3d6b2b8a3,
   0x748f82ee5defb2fc, 0x78a5636f43172f60, 0x84c87814a1f0ab72, 0x8cc702081a6439ec,
   0x90befffa23631e28, 0xa4506cebde82bde9, 0xbef9a3f7b2c67915, 0xc67178f2e372532b,
   0xca273eceea26619c, 0xd186b8c721c0c207, 0xeada7dd6cde0eb1e, 0xf57d4f7fee6ed178,
   0x06f067aa72176fba, 0x0a637dc5a2c898a6, 0x113f9804bef90dae, 0x1b710b35131c471b,
   0x28db77f523047d84, 0x32caab7b40c72493, 0x3c9ebe0a15c9bebc, 0x431d67c49c100d4c,
   0x4cc5d4becb3e42b6, 0x597f299cfc657e2a, 0x5fcb6fab3ad6faec, 0x6c44198c4a475817]

/-- The leading 64 bits of the fractional parts of the square roots of the first eight primes. -/
def initialWords : List Nat :=
  [0x6a09e667f3bcc908, 0xbb67ae8584caa73b, 0x3c6ef372fe94f82b, 0xa54ff53a5f1d36f1,
   0x510e527fade682d1, 0x9b05688c2b3e6c1f, 0x1f83d9abfb41bd6b, 0x5be0cd19137e2179]

structure Rotations where
  first : Nat
  second : Nat
  third : Nat

/-- What tells the members of the family apart. The last entry of `small0` and `small1` is a shift.
-/
structure Variant (w : Nat) where
  rounds : Nat
  big0 : Rotations
  big1 : Rotations
  small0 : Rotations
  small1 : Rotations

def variant256 : Variant 32 :=
  ⟨64, ⟨2, 13, 22⟩, ⟨6, 11, 25⟩, ⟨7, 18, 3⟩, ⟨17, 19, 10⟩⟩

def variant512 : Variant 64 :=
  ⟨80, ⟨28, 34, 39⟩, ⟨14, 18, 41⟩, ⟨1, 8, 7⟩, ⟨19, 61, 6⟩⟩

structure State (w : Nat) where
  a : BitVec w
  b : BitVec w
  c : BitVec w
  d : BitVec w
  e : BitVec w
  f : BitVec w
  g : BitVec w
  h : BitVec w

namespace State

variable {w : Nat}

def ofWords (xs : List (BitVec w)) : State w :=
  ⟨xs.getD 0 0, xs.getD 1 0, xs.getD 2 0, xs.getD 3 0, xs.getD 4 0, xs.getD 5 0, xs.getD 6 0,
   xs.getD 7 0⟩

def words (s : State w) : List (BitVec w) :=
  [s.a, s.b, s.c, s.d, s.e, s.f, s.g, s.h]

def add (s t : State w) : State w :=
  ⟨s.a + t.a, s.b + t.b, s.c + t.c, s.d + t.d, s.e + t.e, s.f + t.f, s.g + t.g, s.h + t.h⟩

end State

variable {w : Nat}

def leading (w : Nat) (n : Nat) : BitVec w :=
  BitVec.ofNat w (n >>> (64 - w))

def bigSigma (r : Rotations) (x : BitVec w) : BitVec w :=
  x.rotateRight r.first ^^^ x.rotateRight r.second ^^^ x.rotateRight r.third

def smallSigma (r : Rotations) (x : BitVec w) : BitVec w :=
  x.rotateRight r.first ^^^ x.rotateRight r.second ^^^ (x >>> r.third)

def choose (x y z : BitVec w) : BitVec w :=
  (x &&& y) ^^^ (~~~x &&& z)

def majority (x y z : BitVec w) : BitVec w :=
  (x &&& y) ^^^ (x &&& z) ^^^ (y &&& z)

/-- The next word of the message schedule, from the words so far, newest first. -/
def nextWord (v : Variant w) (ws : List (BitVec w)) : BitVec w :=
  smallSigma v.small1 (ws.getD 1 0) + ws.getD 6 0 + smallSigma v.small0 (ws.getD 14 0) +
    ws.getD 15 0

def extend (v : Variant w) : Nat → List (BitVec w) → List (BitVec w)
  | 0, ws => ws
  | n + 1, ws => extend v n (nextWord v ws :: ws)

def schedule (v : Variant w) (block : List (BitVec w)) : List (BitVec w) :=
  (extend v (v.rounds - 16) block.reverse).reverse

def round (v : Variant w) (s : State w) (kx : BitVec w × BitVec w) : State w :=
  let t1 := s.h + bigSigma v.big1 s.e + choose s.e s.f s.g + kx.1 + kx.2
  let t2 := bigSigma v.big0 s.a + majority s.a s.b s.c
  ⟨t1 + t2, s.a, s.b, s.c, s.d + t1, s.e, s.f, s.g⟩

def compress (v : Variant w) (s : State w) (block : List (BitVec w)) : State w :=
  s.add (((roundConstants.map (leading w)).zip (schedule v block)).foldl (round v) s)

def bigEndian (width n : Nat) : Bytes :=
  (Bytes.ofNat width n).reverse

/-- The message, a one bit, zeros up to the length field, and the length in bits. -/
def pad (w : Nat) (message : Bytes) : Bytes :=
  let block := 2 * w
  let field := w / 4
  let zeros := (2 * block - 1 - field - message.length % block) % block
  message ++ 0x80 :: List.replicate zeros 0 ++ bigEndian field (8 * message.length)

def parts (size : Nat) : (count : Nat) → Bytes → List Bytes
  | 0, _ => []
  | count + 1, bs => bs.take size :: parts size count (bs.drop size)

def blockWords (w : Nat) (block : Bytes) : List (BitVec w) :=
  (parts (w / 8) 16 block).map fun part => BitVec.ofNat w (Bytes.value part.reverse)

def digest (v : Variant w) (message : Bytes) : Bytes :=
  let padded := pad w message
  let start := State.ofWords (initialWords.map (leading w))
  let final := (parts (2 * w) (padded.length / (2 * w)) padded).foldl
    (fun s block => compress v s (blockWords w block)) start
  final.words.flatMap fun x => bigEndian (w / 8) x.toNat

theorem length_digest (v : Variant w) (message : Bytes) :
    (digest v message).length = 8 * (w / 8) := by
  simp only [digest, State.words, bigEndian, List.flatMap_cons, List.flatMap_nil,
    List.length_append, List.length_reverse, Bytes.length_ofNat, List.length_nil]
  omega

def sha256 (message : Bytes) : Bytes :=
  digest variant256 message

def sha512 (message : Bytes) : Bytes :=
  digest variant512 message

theorem length_sha256 (message : Bytes) : (sha256 message).length = 32 :=
  length_digest variant256 message

theorem length_sha512 (message : Bytes) : (sha512 message).length = 64 :=
  length_digest variant512 message

end Settlement.Sha2
