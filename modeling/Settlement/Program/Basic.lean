import Settlement.Program.Settle
import Settlement.Program.Log
import Settlement.Metrics.Basic

/-! The program: it takes an instruction apart, runs its script under the budget of the operation,
and records how it ended. The record of an account is read anew each time, and nothing is kept from
one instruction to the next. -/

namespace Settlement

structure Program where
  rules : Rules
  budget : Operation → Json.Value

namespace Program

def ofConfig (c : Config) : Outcome Program := do
  let _ ← c.programId.hex
  return ⟨← Rules.ofConfig c, c.budget⟩

def address (p : Program) : Bytes := p.rules.programs.settlement

end Program

structure Receipt where
  operation : Operation
  calls : List Call
  units : Number
  allocation : Option Allocation
deriving DecidableEq

def Operation.route (data : Bytes) : Except Refusal (Operation × Bytes) :=
  if data.length < 8 then .error .shortInstruction
  else match ofDiscriminator? (data.take 8) with
    | some operation => .ok (operation, data.drop 8)
    | none => .error (.unknownDiscriminator (data.take 8))

/-- An instruction that has been processed: how it ended, the calls it handed over, the units it
used, the host's state, and what it left in the log and the metrics. -/
structure Processed (σ : Type) where
  outcome : Outcome Receipt
  handed : List Call
  units : Number
  host : σ
  metrics : Option Metrics
  log : List LogLine

namespace Program

variable {σ : Type}

def rejected (fault : Fault) (units : Number) (metrics : Option Metrics) (s : σ) : Processed σ :=
  ⟨.error fault, [], units, s, metrics, []⟩

def invoking (c : Call) : LogLine :=
  ⟨.debug, .dispatch, Text.of "Invoking " ++ c.kind.name ++ Text.of " on " ++
    Text.ofChars ((Hex.encode c.program).take 8) ++ Text.of " amount=" ++ c.amount.display⟩

/-- An instruction is recorded as one that has taken no time. -/
def recordSettled (operation : Operation) (units : Number) (calls : List Call) (m : Metrics) :
    Metrics :=
  let name := Text.of operation.name
  let m := (m.recordInstruction name (Text.of "ok") (.ofNumber units) (.int 0)).2
  (m.recordCalls (calls.map fun c => (c.kind.name, c.amount))).2

def recordAborted (operation : Operation) (units : Number) (signal : Signal) (m : Metrics) :
    Metrics :=
  (m.recordInstruction (Text.of operation.name) signal.status (.ofNumber units) (.int 0)).2

/-- The end of a run, told to the log and the monitor. A fault that is no signal goes past both. -/
def conclude (operation : Operation) (metrics : Option Metrics) (run : Run σ)
    (outcome : Outcome Settled) : Processed σ :=
  let name := Text.of operation.name
  let used := run.meter.used
  let calls := run.handed.map invoking
  match outcome with
  | .ok settled =>
    let told := LogLine.mk .debug .program (name ++ Text.of " used " ++ used.display ++
      Text.of "/" ++ run.meter.limit.display ++ Text.of " compute units")
    ⟨.ok ⟨operation, settled.calls, used, settled.allocation⟩, run.handed, used, run.host,
      metrics.map (recordSettled operation used settled.calls),
      calls ++ [⟨.info, .program, settled.summary⟩, told]⟩
  | .error fault =>
    match fault.signal? with
    | some signal =>
      let told := LogLine.mk .warning .program (name ++ Text.of " rejected: " ++ signal.label ++
        Text.of " (" ++ signal.message.display ++ Text.of ")")
      ⟨.error fault, run.handed, used, run.host, metrics.map (recordAborted operation used signal),
        calls ++ [told]⟩
    | none => ⟨.error fault, run.handed, used, run.host, metrics, calls⟩

/-- Processes instruction data. The base charge comes before the run, and its failure is not
recorded. -/
def process (p : Program) (host : Host σ) (accounts : List AccountView) (data : Bytes)
    (metrics : Option Metrics) (s : σ) : Processed σ :=
  match Operation.route data with
  | .error r => rejected (.refused r) 0 metrics s
  | .ok (operation, payload) =>
    let label := Text.of "base_instruction"
    match (Meter.start (p.budget operation)).charge (.int Cost.baseInstruction) label with
    | (.error fault, m) => rejected fault m.used metrics s
    | (.ok (), m) =>
      let script := operation.script p.rules accounts payload
      let run := runSteps host p.address script.steps m s
      conclude operation metrics run (run.outcome script)

end Program
end Settlement
