import Settlement.Account.Record
import Settlement.Account.Token
import Settlement.Config.Programs
import Settlement.Instruction.Memo
import Settlement.Instruction.Payload
import Settlement.Script.Run

/-! The checks that the operations share. -/

namespace Settlement.Validation

open Script

/-- The record that a view holds, once its owner, its address and its first flag are checked. The
length of the data is judged before anything else. -/
def record (rules : Rules) (view : AccountView) : Script Record := do
  charge Cost.recordDecode "record_decode"
  let record ← check (Record.decode view.data)
  charge Cost.accountCheck "record_owner"
  require (view.owner == rules.programs.settlement) .recordOwner
  charge Cost.derivation "record_identity"
  let program := rules.programs.settlement
  require (Identity.configRecord.verify record.bump program view.key) .recordAddress
  require record.initialized .notInitialized
  return record

def signer (view : AccountView) (role : Role) : Script Unit :=
  require view.signer (.unsigned role)

def authority (view : AccountView) (key : Bytes) (role : Role) : Script Unit := do
  signer view role
  require (view.key == key) (.wrongAuthority role)

/-- The capability to sign for an identity, for a view at its address. -/
def identity (rules : Rules) (view : AccountView) (i : Identity) (bump : UInt8) (role : Role) :
    Script Seeds := do
  require (i.verify bump rules.programs.settlement view.key) (.wrongIdentity role)
  return i.seeds bump

/-- The capability for a view at the address with the highest bump. No lower bump will do. -/
def canonicalIdentity (rules : Rules) (view : AccountView) (i : Identity) (role : Role) :
    Script Seeds := do
  let (address, bump) ← attempt (derived (i.find rules.programs.settlement))
  require (address == view.key) (.wrongIdentity role)
  return i.seeds bump

def mint (rules : Rules) (view : AccountView) (record : Record) : Script Unit := do
  require (view.owner == rules.programs.token) .mintOwner
  require (view.key == record.mint) .mintKey

end Settlement.Validation
