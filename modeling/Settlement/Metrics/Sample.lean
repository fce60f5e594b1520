import Settlement.Metrics.Basic
import Settlement.Json.Fields

/-! The samples of a monitor, in the order of their names and then of their labels. The buckets of a
histogram count all observations up to their bound. The values are shown whole, and the first one
collected that has no whole part is a fault. -/

namespace Settlement

structure Sample where
  name : Text
  labels : List (Text × Text)
  value : Int

namespace Sample

def order (s t : Sample) : Ordering :=
  (compare s.name t.name).then <|
    compare (s.labels.flatMap fun l => [l.1, l.2]) (t.labels.flatMap fun l => [l.1, l.2])

end Sample

namespace Histogram

def bounds : List String :=
  unitBounds.map (fun bound => s!"{bound}.0") ++ ["+Inf"]

def cumulative (before : Nat) : List Nat → List Nat
  | [] => []
  | n :: ns => (before + n) :: cumulative (before + n) ns

def samples (operation : Text) (h : Histogram) : Outcome (List Sample) := do
  let label := (Text.of "operation", operation)
  let buckets := (bounds.zip (cumulative 0 h.counts)).map fun (bound, n) =>
    Sample.mk (Text.of "settlement_compute_units_bucket") [(Text.of "le", Text.of bound), label] n
  let sum ← (Json.Value.float h.sum).whole
  return buckets ++ [⟨Text.of "settlement_compute_units_count", [label], h.count⟩,
    ⟨Text.of "settlement_compute_units_sum", [label], sum⟩]

end Histogram

namespace Metrics

def samples (m : Metrics) : Outcome (List Sample) := do
  let kind (k : Text) := [(Text.of "kind", k)]
  let instructions := m.instructions.map fun ((operation, status), n) =>
    Sample.mk (Text.of "settlement_instructions_total")
      [(Text.of "operation", operation), (Text.of "status", status)] n
  let units ← m.units.mapM fun (operation, h) => h.samples operation
  let latencies := m.latencies.map fun (operation, n) =>
    Sample.mk (Text.of "settlement_instruction_latency_seconds_count")
      [(Text.of "operation", operation)] n
  let calls := m.calls.map fun (k, n) =>
    Sample.mk (Text.of "settlement_external_calls_total") (kind k) n
  let amounts ← m.amounts.mapM fun (k, x) => do
    return Sample.mk (Text.of "settlement_amount_total") (kind k) (← (Json.Value.float x).whole)
  let all := instructions ++ units.flatten ++ latencies ++ calls ++ amounts
  return all.mergeSort fun s t => (s.order t).isLE

end Metrics
end Settlement
