import Settlement.Fault.Basic
import Settlement.Json.Value

/-! Compute units: every step has a fixed cost, and a run whose sum passes the limit ends. -/

namespace Settlement

structure Meter where
  limit : Json.Value
  used : Number

namespace Meter

def start (limit : Json.Value) : Meter := ⟨limit, 0⟩

/-- Adds to the units used, and only then compares with the limit. -/
def charge (m : Meter) (units : Number) (label : Text) : Outcome Unit × Meter :=
  match m.used.add? units with
  | none => (.error .wordRange, m)
  | some used =>
    let outcome : Outcome Unit := match m.limit.number? with
      | none => .error .wrongKind
      | some limit => if limit.less used then refuse (.outOfCompute used limit label) else .ok ()
    (outcome, ⟨m.limit, used⟩)

end Meter

namespace Cost

def baseInstruction : Nat := 100
def accountCheck : Nat := 20
def recordDecode : Nat := 100
def derivation : Nat := 1500
def search : Nat := 3000
def payloadField : Nat := 10
def memoCheck : Nat := 200
def splitCalculation : Nat := 50
def call : Nat := 1000

end Cost
end Settlement
