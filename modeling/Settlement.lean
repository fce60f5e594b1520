import Settlement.Account.RecordFields
import Settlement.Instruction.Peek
import Settlement.Instruction.PayloadFields
import Settlement.Ledger.Seed
import Settlement.Metrics.Sample
import Settlement.Proofs.Program.Handovers
import Settlement.Proofs.Program.Answers
import Settlement.Proofs.Ledger.Rollback
import Settlement.Proofs.Ledger.Erasure
import Settlement.Proofs.Ledger.Authority
import Settlement.Proofs.Ledger.Conservation
import Settlement.Proofs.Ledger.Headroom
import Settlement.Proofs.Ledger.Supply
import Settlement.Proofs.Instruction.Payload
import Settlement.Proofs.Account.RecordCodec
import Settlement.Proofs.Ledger.Signatures
import Settlement.Proofs.Program.Completion
import Settlement.Proofs.Instruction.Memo
import Settlement.Proofs.Ledger.Granted
import Settlement.Proofs.Ledger.Filling
import Settlement.Proofs.Ledger.Honest
import Settlement.Proofs.Address.Separation
import Settlement.Proofs.Program.Budget
import Settlement.Proofs.Ledger.Reconciliation
import Settlement.Proofs.Validation.Verdicts
import Settlement.Proofs.Validation.BurnVerdicts
import Settlement.Proofs.Validation.Canonical
import Settlement.Proofs.Ledger.Payment
import Settlement.Proofs.Ledger.Burning
import Settlement.Proofs.Number.Value
import Settlement.Proofs.Split.Truncation
import Settlement.Proofs.Ledger.Delegation
import Settlement.Proofs.Ledger.Injection
import Settlement.Proofs.Program.Cost
import Settlement.Proofs.Program.Recorded
import Settlement.Proofs.Account.Layout
import Settlement.Proofs.Ledger.Creation
import Settlement.Proofs.Config.Saved
