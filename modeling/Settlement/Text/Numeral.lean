import Settlement.Text.Basic

/-! Whole numbers in text: blanks around it, a sign, and decimal digits of any script with single
low lines between them. -/

namespace Settlement.Numeral

/-- The zeros of the scripts that have decimal digits, in Unicode 14. -/
def zeros : List Nat :=
  [0x30, 0x660, 0x6f0, 0x7c0, 0x966, 0x9e6, 0xa66, 0xae6, 0xb66, 0xbe6, 0xc66, 0xce6, 0xd66, 0xde6,
   0xe50, 0xed0, 0xf20, 0x1040, 0x1090, 0x17e0, 0x1810, 0x1946, 0x19d0, 0x1a80, 0x1a90, 0x1b50,
   0x1bb0, 0x1c40, 0x1c50, 0xa620, 0xa8d0, 0xa900, 0xa9d0, 0xa9f0, 0xaa50, 0xabf0, 0xff10, 0x104a0,
   0x10d30, 0x11066, 0x110f0, 0x11136, 0x111d0, 0x112f0, 0x11450, 0x114d0, 0x11650, 0x116c0,
   0x11730, 0x118e0, 0x11950, 0x11c50, 0x11d50, 0x11da0, 0x16a60, 0x16ac0, 0x16b50, 0x1d7ce,
   0x1d7d8, 0x1d7e2, 0x1d7ec, 0x1d7f6, 0x1e140, 0x1e2f0, 0x1e950, 0x1fbf0]

def digit? (c : CodePoint) : Option Nat :=
  (zeros.find? fun z => z ≤ c.val && c.val < z + 10).map (c.val - ·)

def isBlank (c : CodePoint) : Bool :=
  let n := c.val
  (9 ≤ n && n ≤ 13) || n == 0x20 || n == 0x85 || n == 0xa0 || n == 0x1680 ||
    (0x2000 ≤ n && n ≤ 0x200a) || n == 0x2028 || n == 0x2029 || n == 0x202f || n == 0x205f ||
    n == 0x3000

/-- The digits of a numeral. A low line stands between two digits. -/
def digits? : Text → Option (List Nat)
  | [] => none
  | [c] => (digit? c).map ([·])
  | c :: d :: rest => do
    let x ← digit? c
    let xs ← if d = CodePoint.ofChar '_' then digits? rest else digits? (d :: rest)
    return x :: xs

def ofDigits (xs : List Nat) : Nat := xs.foldl (fun n x => 10 * n + x) 0

/-- The default limit of the runtime: a numeral of more digits is not read. -/
def maxDigits : Nat := 4300

def unsigned? (t : Text) : Option Nat := do
  let xs ← digits? t
  guard (xs.length ≤ maxDigits)
  return ofDigits xs

def trim (t : Text) : Text :=
  ((t.dropWhile isBlank).reverse.dropWhile isBlank).reverse

def int? (t : Text) : Option Int :=
  match trim t with
  | [] => none
  | c :: rest =>
    if c = CodePoint.ofChar '-' then (unsigned? rest).map fun n => -(n : Int)
    else if c = CodePoint.ofChar '+' then (unsigned? rest).map fun n => (n : Int)
    else (unsigned? (c :: rest)).map fun n => (n : Int)

end Settlement.Numeral
