import Settlement.Json.Arithmetic

/-! The counters and the histogram of a monitor. Counts are whole numbers. Sums are binary64
numbers, so they round once they pass `2 ^ 53`. A child appears when it is first addressed, also
with the value zero. -/

namespace Settlement

abbrev Children (κ α : Type) := List (κ × α)

namespace Children

variable {κ α : Type} [DecidableEq κ]

def get? (key : κ) (cs : Children κ α) : Option α :=
  (cs.find? fun c => c.1 == key).map Prod.snd

def update (key : κ) (fresh : α) (f : α → α) : Children κ α → Children κ α
  | [] => [(key, f fresh)]
  | (k, a) :: cs => if k = key then (k, f a) :: cs else (k, a) :: update key fresh f cs

theorem get?_update_self (key : κ) (fresh : α) (f : α → α) (cs : Children κ α) :
    (update key fresh f cs).get? key = some (f ((cs.get? key).getD fresh)) := by
  induction cs with
  | nil => simp [update, get?]
  | cons c cs ih =>
    obtain ⟨k, a⟩ := c
    by_cases h : k = key
    · simp [update, get?, h]
    · simpa [update, get?, h] using ih

theorem get?_update_of_ne {key other : κ} (h : other ≠ key) (fresh : α) (f : α → α)
    (cs : Children κ α) : (update key fresh f cs).get? other = cs.get? other := by
  induction cs with
  | nil => simp [update, get?, Ne.symm h]
  | cons c cs ih =>
    obtain ⟨k, a⟩ := c
    by_cases hk : k = key
    · have : key ≠ other := Ne.symm h
      simp [update, get?, hk, this]
    · by_cases ho : k = other
      · simp [update, get?, ho, h]
      · simpa [update, get?, hk, ho] using ih

end Children

/-- The upper bounds of the compute unit buckets. One bucket more has none. -/
def unitBounds : List Nat := [500, 1000, 2500, 5000, 10000, 20000, 30000]

structure Histogram where
  counts : List Nat
  sum : Binary64
deriving DecidableEq

namespace Histogram

def empty : Histogram := ⟨List.replicate (unitBounds.length + 1) 0, Binary64.zero⟩

/-- The bucket of a number: the first one whose bound is not below it. What is not a number has
none. -/
def bucket? (x : Number) : Option Nat :=
  let bounds := unitBounds.map (fun (bound : Nat) => Number.int bound) ++ [.float (.infinite false)]
  bounds.findIdx? fun bound => x.lessEq bound

def observe (x : Number) (rounded : Binary64) (h : Histogram) : Histogram :=
  let counts := match bucket? x with
    | some i => h.counts.modify i (· + 1)
    | none => h.counts
  ⟨counts, h.sum.add rounded⟩

def count (h : Histogram) : Nat := h.counts.sum

end Histogram

structure Metrics where
  instructions : Children (Text × Text) Nat
  units : Children Text Histogram
  latencies : Children Text Nat
  calls : Children Text Nat
  amounts : Children Text Binary64
deriving DecidableEq

namespace Metrics

def empty : Metrics := ⟨[], [], [], [], []⟩

/-- A number as an observation, with its rounding. -/
def observed (v : Json.Value) : Outcome (Number × Binary64) :=
  match v.number? with
  | none => .error .wrongKind
  | some x =>
    match x.rounded? with
    | some r => .ok (x, r)
    | none => .error .wordRange

/-- Counts an instruction under its operation and status, and observes its units and then its
latency. What cannot be observed is a fault, and what came before it counts. -/
def recordInstruction (operation status : Text) (units latency : Json.Value) (m : Metrics) :
    Outcome Unit × Metrics :=
  let m := { m with
    instructions := m.instructions.update (operation, status) 0 (· + 1)
    units := m.units.update operation .empty id }
  match observed units with
  | .error e => (.error e, m)
  | .ok (x, rounded) =>
    let m := { m with
      units := m.units.update operation .empty (·.observe x rounded)
      latencies := m.latencies.update operation 0 id }
    match observed latency with
    | .error e => (.error e, m)
    | .ok (x, _) =>
      let counted := if (Histogram.bucket? x).isSome then 1 else 0
      (.ok (), { m with latencies := m.latencies.update operation 0 (· + counted) })

/-- Counts a call and adds its amount. A negative amount is a fault, but the call is counted. -/
def recordCall (kind : Text) (amount : Json.Value) (m : Metrics) : Outcome Unit × Metrics :=
  let m := { m with
    calls := m.calls.update kind 0 (· + 1)
    amounts := m.amounts.update kind .zero id }
  match amount.less (.int 0) with
  | .error e => (.error e, m)
  | .ok true => (.error .negativeIncrement, m)
  | .ok false =>
    match observed amount with
    | .error e => (.error e, m)
    | .ok (_, x) => (.ok (), { m with amounts := m.amounts.update kind .zero (·.add x) })

/-- Records calls up to the first one that is a fault. -/
def recordCalls : List (Text × Json.Value) → Metrics → Outcome Unit × Metrics
  | [], m => (.ok (), m)
  | (kind, amount) :: rest, m =>
    match m.recordCall kind amount with
    | (.ok (), m) => recordCalls rest m
    | (.error e, m) => (.error e, m)

end Metrics
end Settlement
