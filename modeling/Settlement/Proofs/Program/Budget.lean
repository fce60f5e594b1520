import Settlement.Proofs.Ledger.Balances
import Settlement.Proofs.Script.Trace

/-! Budgets. A larger one changes nothing about an instruction that the smaller one lets end in some
other way. One that the smaller budget stops goes on from there, and takes nothing back. -/

namespace Settlement

variable {σ : Type} {host : Host σ} {caller : Bytes}

/-- An outcome that a budget is the reason of. -/
def Outcome.outOfCompute {α : Type} : Outcome α → Bool
  | .error (.signal (.host .computeBudgetExceeded _)) => true
  | _ => false

namespace Program

def withBudgets (p : Program) (budgets : Operation → Int) : Program :=
  { p with budget := fun operation => .int (budgets operation) }

end Program
end Settlement
