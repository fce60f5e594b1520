import Settlement.Bytes.Word
import Settlement.Json.Value

/-! Accounts: as a ledger stores them, as an instruction is handed them, and as a call refers to
them. -/

namespace Settlement

/-- The owner of an account that no program has taken. -/
def systemAddress : Bytes := List.replicate 32 0

structure Account where
  owner : Bytes
  data : Bytes
  executable : Bool
  lamports : Json.Value
deriving DecidableEq

def Account.empty : Account := ⟨systemAddress, [], false, .int 0⟩

/-- An account in the list of an instruction. Owner and data are what the caller claims. -/
structure AccountView where
  key : Bytes
  account : Account
  signer : Bool
  writable : Bool
deriving DecidableEq

namespace AccountView

def owner (v : AccountView) : Bytes := v.account.owner

def data (v : AccountView) : Bytes := v.account.data

end AccountView

structure AccountMeta where
  key : Bytes
  signer : Bool
  writable : Bool
deriving DecidableEq

namespace AccountMeta

def ofView (v : AccountView) : AccountMeta := ⟨v.key, v.signer, v.writable⟩

def signing (key : Bytes) : AccountMeta := ⟨key, true, false⟩

def payer (key : Bytes) : AccountMeta := ⟨key, true, true⟩

def writing (key : Bytes) : AccountMeta := ⟨key, false, true⟩

def reading (key : Bytes) : AccountMeta := ⟨key, false, false⟩

end AccountMeta
end Settlement
