import Settlement.Fault.Basic

/-! The order of values, and arithmetic on those that are numbers. Whole numbers give whole results.
Everything else that does not compare or compute is of the wrong kind. -/

namespace Settlement.Json.Value

mutual

/-- Numbers compare by their value, text by its code points, and lists by the first place where they
differ. -/
def less : Value → Value → Outcome Bool
  | .text s, .text t => .ok (compare s t == .lt)
  | .list xs, .list ys => lessItems xs ys
  | a, b =>
    match a.number?, b.number? with
    | some x, some y => .ok (x.less y)
    | _, _ => .error .wrongKind

def lessItems : List Value → List Value → Outcome Bool
  | x :: xs, y :: ys => if alike x y then lessItems xs ys else less x y
  | [], ys => .ok (!ys.isEmpty)
  | _ :: _, [] => .ok false

end

/-- The result of two numbers. A whole number beyond binary64 does not go with a binary64 one. -/
def compute (f : Number → Number → Option Number) (a b : Value) : Outcome Value :=
  match a.number?, b.number? with
  | some x, some y =>
    match f x y with
    | some z => .ok (ofNumber z)
    | none => .error .wordRange
  | _, _ => .error .wrongKind

def add : Value → Value → Outcome Value := compute Number.add?

def sub : Value → Value → Outcome Value := compute Number.sub?

/-- No memory holds more items than these. -/
def maxItems : Nat := 2 ^ 36

/-- The fault of multiplying text or a list. A count that is no signed word is out of range, as is
text of more places than the words count. More items than memory holds are too large. Otherwise
text and lists are no factors. -/
def multipleFault (isText : Bool) (length : Nat) (count : Int) : Fault :=
  let places := length * count
  if count < -2 ^ 63 || 2 ^ 63 ≤ count then .wordRange
  else if isText && 2 ^ 63 ≤ places then .wordRange
  else if maxItems < places then .tooLarge
  else .wrongKind

def mul : Value → Value → Outcome Value
  | .text t, .int n => .error (multipleFault true t.length n)
  | .list xs, .int n => .error (multipleFault false xs.length n)
  | a, b => compute Number.mul? a b

def floorDiv : Value → Value → Outcome Value
  | a, b =>
    match a.number?, b.number? with
    | some _, some y =>
      if y.isZero then .error .divisionByZero else compute Number.floorDiv? a b
    | _, _ => .error .wrongKind

def neg (a : Value) : Outcome Value :=
  match a.number? with
  | some x => .ok (ofNumber x.neg)
  | none => .error .wrongKind

@[simp] theorem less_int (m n : Int) : less (.int m) (.int n) = .ok (decide (m < n)) := by
  simp [less, number?, Number.less_int]

@[simp] theorem add_int (m n : Int) : add (.int m) (.int n) = .ok (.int (m + n)) := rfl

@[simp] theorem sub_int (m n : Int) : sub (.int m) (.int n) = .ok (.int (m - n)) := rfl

@[simp] theorem mul_int (m n : Int) : mul (.int m) (.int n) = .ok (.int (m * n)) := rfl

@[simp] theorem neg_int (n : Int) : neg (.int n) = .ok (.int (-n)) := rfl

@[simp] theorem floorDiv_int (m n : Int) :
    floorDiv (.int m) (.int n) =
      if n = 0 then .error .divisionByZero else .ok (.int (m.fdiv n)) := by
  simp only [floorDiv, number?, Number.isZero_int, decide_eq_true_eq]
  rfl

end Settlement.Json.Value
