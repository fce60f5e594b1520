import Settlement.Number.Decimal
import Settlement.Number.Quotient
import Settlement.Text.Basic

/-! Numbers as documents give them: whole ones of any size, binary64 ones, and flags, which count as
one and zero. -/

namespace Settlement

inductive Number where
  | flag (b : Bool)
  | int (n : Int)
  | float (x : Binary64)
deriving DecidableEq, Repr

namespace Number

instance (n : Nat) : OfNat Number n := ⟨.int n⟩

def int? : Number → Option Int
  | .flag b => some (if b then 1 else 0)
  | .int n => some n
  | .float _ => none

def exact : Number → Binary64
  | .flag b => .exactly (if b then 1 else 0)
  | .int n => .exactly n
  | .float x => x

/-- The order of two values, exact also between whole and binary64 numbers. -/
def compare? (x y : Number) : Option Ordering :=
  match x.int?, y.int? with
  | some m, some n => some (compare m n)
  | _, _ => x.exact.compare? y.exact

def less (x y : Number) : Bool := x.compare? y == some .lt

def lessEq (x y : Number) : Bool := x.less y || x.compare? y == some .eq

theorem less_int (m n : Int) : less (.int m) (.int n) = decide (m < n) := by
  simp only [less, compare?, int?, compare, compareOfLessAndEq]
  by_cases h : m < n
  · simp [h]
  · by_cases h' : m = n <;> simp [h, h']

theorem lessEq_int (m n : Int) : lessEq (.int m) (.int n) = decide (m ≤ n) := by
  simp only [lessEq, less_int, compare?, int?, compare, compareOfLessAndEq]
  by_cases h : m < n
  · simp [h, Int.le_of_lt h]
  · by_cases h' : m = n
    · simp [h']
    · simp [h, h', show ¬ m ≤ n by omega]

/-- The binary64 number for an operand. A whole number above the largest one has none. -/
def rounded? : Number → Option Binary64
  | .float x => some x
  | x => match (x.int?.map Binary64.ofInt) with
    | some (.finite s m e) => some (.finite s m e)
    | _ => none

/-- A whole result of whole numbers, otherwise a binary64 one. -/
def combine? (whole : Int → Int → Int) (rounded : Binary64 → Binary64 → Binary64) (x y : Number) :
    Option Number :=
  match x.int?, y.int? with
  | some m, some n => some (.int (whole m n))
  | _, _ => do return .float (rounded (← x.rounded?) (← y.rounded?))

def add? : Number → Number → Option Number := combine? (· + ·) Binary64.add

def sub? : Number → Number → Option Number := combine? (· - ·) Binary64.sub

def mul? : Number → Number → Option Number := combine? (· * ·) Binary64.mul

/-- The quotient rounded down, for a divisor that is not zero. -/
def floorDiv? : Number → Number → Option Number := combine? Int.fdiv Binary64.floorDiv

def neg : Number → Number
  | .float x => .float x.neg
  | x => .int (-(x.int?.getD 0))

def isZero (x : Number) : Bool := x.compare? (.int 0) == some .eq

theorem add?_int (m n : Int) : add? (.int m) (.int n) = some (.int (m + n)) := rfl

theorem compare?_int_eq (m n : Int) :
    (compare? (.int m) (.int n) == some .eq) = decide (m = n) := by
  simp only [compare?, int?, compare, compareOfLessAndEq]
  by_cases h : m < n
  · simp [h, Int.ne_of_lt h]
  · by_cases h' : m = n <;> simp [h, h']

theorem isZero_int (n : Int) : isZero (.int n) = decide (n = 0) := compare?_int_eq n 0

end Number
end Settlement
