import Settlement.Proofs.Ledger.Presented
import Settlement.Proofs.Program.Answers

/-! Honest instructions. On a ledger that was filled after its genesis, an instruction that presents
the accounts of the ledger, that the keys in charge have signed, and that asks for no more than there
is, ends with a receipt. -/

namespace Settlement

open Outcome

namespace Ledger

namespace Sample

def paying : Ledger := credited.setCompressed userKey (.int 120)

def views (places : List (Bytes × Bool)) : List AccountView :=
  places.map fun place => paying.view place.1 place.2 false

end Sample

end Ledger
end Settlement
