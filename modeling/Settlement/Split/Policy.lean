import Settlement.Json.Fields
import Settlement.Json.Arithmetic

/-! How a payment is divided: the organization gets its fraction of the total, rounded down, and the
incentive pool the rest. -/

namespace Settlement

structure Ratio where
  numerator : Number
  denominator : Number
deriving DecidableEq

namespace Ratio

def parts (v : Json.Value) : Outcome (Json.Value × Json.Value) := do
  match ← v.items with
  | [a, b] => return (a, b)
  | _ => .error .wrongCount

/-- A ratio lies between zero and one over a positive denominator. What does not compare is of the
wrong kind, unless an earlier comparison refuses the ratio. -/
def ofValue (name : Text) (v : Json.Value) : Outcome Ratio := do
  let (numerator, denominator) ← parts v
  let refused : Outcome Ratio := .error (.badRatio name numerator.display denominator.display)
  match denominator.number? with
  | none => .error .wrongKind
  | some d =>
    if d.lessEq 0 then refused
    else match numerator.number? with
      | none => .error .wrongKind
      | some n => if n.less 0 || d.less n then refused else .ok ⟨n, d⟩

def toValue (r : Ratio) : Json.Value := .list [.ofNumber r.numerator, .ofNumber r.denominator]

end Ratio

structure Share where
  numerator : Int
  denominator : Int
deriving DecidableEq

/-- The shares by operation type. The types that have one are the types allowed. -/
abbrev Policy := List (Text × Share)

structure Allocation where
  toOrganization : Json.Value
  toPool : Json.Value
deriving DecidableEq

namespace Policy

def ofRatios (ratios : List (Text × Ratio)) : Outcome Policy :=
  ratios.mapM fun (name, r) => do
    let numerator ← (Json.Value.ofNumber r.numerator).whole
    let denominator ← (Json.Value.ofNumber r.denominator).whole
    return (name, ⟨numerator, denominator⟩)

/-- A policy from values that no one has checked. -/
def ofValues (ratios : Json.Fields) : Outcome Policy :=
  ratios.mapM fun (name, v) => do
    let (numerator, denominator) ← Ratio.parts v
    return (name, ⟨← numerator.whole, ← denominator.whole⟩)

/-- Only text names an operation type. -/
def share? (p : Policy) : Json.Value → Option Share
  | .text operation => Json.field? operation p
  | _ => none

def allows (p : Policy) (operation : Json.Value) : Bool := (p.share? operation).isSome

def maxAmount : Int := 2 ^ 64 - 1

def allocate (p : Policy) (operation total : Json.Value) : Outcome Allocation :=
  if total.same (.int 0) then refuse .zeroTotal
  else match p.share? operation with
    | none => refuse (.unknownOperation operation)
    | some share => do
      let product ← total.mul (.int share.numerator)
      let toOrganization ← product.floorDiv (.int share.denominator)
      let toPool ← total.sub toOrganization
      if (← toOrganization.less (.int 0)) || (← toPool.less (.int 0)) then refuse .negativeLeg
      else if (← Json.Value.less (.int maxAmount) toOrganization) ||
          (← Json.Value.less (.int maxAmount) toPool) then refuse .legTooLarge
      else if !(← toOrganization.add toPool).same total then refuse .legsDiffer
      else return ⟨toOrganization, toPool⟩

/-- Of whole totals the legs are whole, and always sum to the total. -/
theorem allocate_int (p : Policy) (operation : Json.Value) (total : Int) :
    p.allocate operation (.int total) =
      if total = 0 then refuse .zeroTotal
      else match p.share? operation with
        | none => refuse (.unknownOperation operation)
        | some share =>
          let leg := (total * share.numerator).fdiv share.denominator
          if share.denominator = 0 then .error .divisionByZero
          else if leg < 0 ∨ total - leg < 0 then refuse .negativeLeg
          else if maxAmount < leg ∨ maxAmount < total - leg then refuse .legTooLarge
          else .ok ⟨.int leg, .int (total - leg)⟩ := by
  simp only [allocate, Json.Value.same_int, decide_eq_true_eq]
  split
  · rfl
  · split
    · rfl
    · next share _ =>
      by_cases h : share.denominator = 0
      · simp [h, bind, Except.bind]
      · have sum (leg : Int) : leg + (total - leg) = total := by omega
        simp [h, bind, Except.bind, pure, Except.pure, Json.Value.same_int, sum]

end Policy
end Settlement
