import Settlement.Bytes.Word

/-! Hexadecimal text of bytes. Writing is lower case; reading also takes upper case, and blanks
between the pairs of digits. -/

namespace Settlement.Hex

def digit (n : Nat) : Char :=
  if n < 10 then Char.ofNat (48 + n) else Char.ofNat (87 + n)

def digitValue? (c : Char) : Option Nat :=
  if '0' ≤ c ∧ c ≤ '9' then some (c.toNat - 48)
  else if 'a' ≤ c ∧ c ≤ 'f' then some (c.toNat - 87)
  else if 'A' ≤ c ∧ c ≤ 'F' then some (c.toNat - 55)
  else none

theorem digitValue?_digit {n : Nat} (h : n < 16) : digitValue? (digit n) = some n := by
  revert n
  decide

def digits : (width : Nat) → Nat → List Char
  | 0, _ => []
  | width + 1, n => digits width (n / 16) ++ [digit (n % 16)]

def encode (bs : Bytes) : List Char :=
  bs.flatMap fun b => [digit (b.toNat / 16), digit (b.toNat % 16)]

def isBlank (c : Char) : Bool :=
  c == ' ' || ('\t' ≤ c && c ≤ '\r')

def decode : List Char → Option Bytes
  | [] => some []
  | [c] => if isBlank c then some [] else none
  | c :: d :: rest =>
    if isBlank c then decode (d :: rest)
    else do
      let high ← digitValue? c
      let low ← digitValue? d
      return UInt8.ofNat (16 * high + low) :: (← decode rest)

theorem decode_encode (bs : Bytes) : decode (encode bs) = some bs := by
  induction bs with
  | nil => rfl
  | cons b bs ih =>
    have hb := b.toNat_lt
    have hblank : ∀ n < 16, isBlank (digit n) = false := by decide
    have h : decode (digit (b.toNat / 16) :: digit (b.toNat % 16) :: encode bs) =
        some (b :: bs) := by
      rw [decode, hblank _ (by omega), digitValue?_digit (by omega), digitValue?_digit (by omega),
        ih]
      simp only [Bool.false_eq_true, if_false, Option.bind_eq_bind, Option.bind_some,
        Option.pure_def, Nat.div_add_mod, UInt8.ofNat_toNat]
    simpa [encode] using h

end Settlement.Hex
