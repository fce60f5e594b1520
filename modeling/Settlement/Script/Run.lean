import Settlement.Script.Basic
import Settlement.Script.Meter

/-! Running the steps of a script under a meter, against whoever answers the calls. A run ends at
the first step that fails. -/

namespace Settlement

/-- Whoever answers calls. An answer may be a fault, and the state after it counts all the same. -/
structure Host (σ : Type) where
  invoke : (caller : Bytes) → Call → σ → Outcome Unit × σ

/-- How far a run came: the fault that ended it, the calls handed over, the meter and the host's
state. -/
structure Run (σ : Type) where
  fault : Option Fault
  handed : List Call
  meter : Meter
  host : σ

def runSteps {σ : Type} (host : Host σ) (caller : Bytes) : List Step → Meter → σ → Run σ
  | [], m, s => ⟨none, [], m, s⟩
  | .charge units label :: rest, m, s =>
    match m.charge (.int units) label with
    | (.ok (), m) => runSteps host caller rest m s
    | (.error e, m) => ⟨some e, [], m, s⟩
  | .call c :: rest, m, s =>
    match host.invoke caller c s with
    | (.ok (), s) =>
      let run := runSteps host caller rest m s
      { run with handed := c :: run.handed }
    | (.error e, s) => ⟨some e, [c], m, s⟩

def Run.outcome {σ α : Type} (run : Run σ) (script : Script α) : Outcome α :=
  match run.fault with
  | some e => .error e
  | none => script.outcome

def Host.absent : Host Unit := ⟨fun _ _ s => (.error .noHost, s)⟩

/-- What a recording host has seen: the number of calls, and those it has kept, each with its
caller. -/
structure Recording where
  seen : Nat
  kept : List (Bytes × Call)

/-- A host that keeps each call, but refuses the one of the given number. A number of another kind
counts by its value, and what is none refuses nothing. -/
def Host.recording (failing detail : Json.Value) : Host Recording :=
  ⟨fun caller c r =>
    if failing.same (.int r.seen) then
      (.error (.signal (.external c.program detail)), { r with seen := r.seen + 1 })
    else (.ok (), ⟨r.seen + 1, r.kept ++ [(caller, c)]⟩)⟩

end Settlement
