import Settlement.Ledger.Snapshot

/-! Executing an instruction as a transaction. What was stored before is put back if the instruction
is aborted by a signal. Any other fault leaves what was done up to it. -/

namespace Settlement.Ledger

/-- An action of the ledger: its outcome, the ledger after it, and what it told the log. -/
structure Answer (α : Type) where
  outcome : Outcome α
  ledger : Ledger
  log : List LogLine

def signerKeys (accounts : List AccountView) : List Bytes :=
  (accounts.filter (·.signer)).map (·.key)

def startTransaction (l : Ledger) (signers : List Bytes) : Ledger :=
  { l with signers := signers, callIndex := 0 }

/-- Nothing of a transaction outlives it, whether it was committed or not. -/
def endTransaction (l : Ledger) : Ledger := { l with signers := [], failing := [] }

def rolledBack (signal : Signal) : LogLine :=
  ⟨.warning, .localnet, Text.of "Transaction rolled back: " ++ signal.label⟩

def process (l : Ledger) (accounts : List AccountView) (data : Bytes) : Answer Receipt :=
  let p := l.program.process host accounts data l.metrics l
  ⟨p.outcome, { p.host with metrics := p.metrics }, p.log⟩

/-- Executes an instruction as a transaction. A ledger that has no snapshot executes nothing. -/
def execute (l : Ledger) (accounts : List AccountView) (data : Bytes) : Answer Receipt :=
  match l.snapshot with
  | .error e => ⟨.error e, l, []⟩
  | .ok saved =>
    let answer := (l.startTransaction (signerKeys accounts)).process accounts data
    match answer.outcome with
    | .ok receipt => ⟨.ok receipt, answer.ledger.endTransaction, answer.log⟩
    | .error fault =>
      match fault.signal? with
      | some signal =>
        ⟨.error fault, (answer.ledger.restore saved).endTransaction,
          answer.log ++ [rolledBack signal]⟩
      | none => ⟨.error fault, answer.ledger.endTransaction, answer.log⟩

end Settlement.Ledger
