import Settlement.Ledger.Execute

/-! Filling a ledger: the mint and the configuration record it starts from, records, and token
accounts. -/

namespace Settlement.Ledger

structure Genesis where
  treasury : Bytes
  transferAuthority : Bytes
  secondaryAuthority : Bytes
  mint : Bytes
  recordKey : Bytes
  recordBump : UInt8

/-- Stores a record. Without an owner it belongs to the program. -/
def writeRecord (l : Ledger) (key : Bytes) (record : Record) (owner : Bytes) : Outcome Ledger := do
  let owner := if owner.isEmpty then l.program.address else owner
  return l.setAccount key { Account.empty with owner := owner, data := ← record.encode }

def decimals : Int := 6

def seeded (g : Genesis) : LogLine :=
  ⟨.info, .localnet, Text.of "Local ledger seeded: record=" ++ Signal.shortKey g.recordKey ++
    Text.of " mint=" ++ Signal.shortKey g.mint⟩

def genesis (l : Ledger) (treasury transferAuthority secondaryAuthority mint : Bytes)
    (initialized paused : Bool) (supply : Json.Value) : Answer Genesis :=
  match derived (Identity.configRecord.find l.program.address) with
  | .error e => ⟨.error e, l, []⟩
  | .ok (recordKey, bump) =>
    match supply.fieldInt.bind (Mint.pack · decimals) with
    | .error e => ⟨.error e, l, []⟩
    | .ok data =>
      let l := l.setAccount mint { Account.empty with owner := l.programs.token, data := data }
      let record : Record := { Record.blank with
        treasury := treasury
        secondaryAuthority := secondaryAuthority
        transferAuthority := transferAuthority
        mint := mint
        initialized := initialized
        selfBump := bump.toNat
        paused := paused }
      match l.writeRecord recordKey record [] with
      | .error e => ⟨.error e, l, []⟩
      | .ok l =>
        let g : Genesis := ⟨treasury, transferAuthority, secondaryAuthority, mint, recordKey, bump⟩
        ⟨.ok g, l, [seeded g]⟩

def storeTokenAccount (key mint owner : Bytes) (amount : Json.Value) (l : Ledger) :
    Outcome Ledger := do
  let data ← TokenAccount.pack mint owner (← amount.fieldInt)
  return l.setAccount key { Account.empty with owner := l.programs.token, data := data }

/-- The account is stored first, and stays if the supply cannot take the amount. -/
def createTokenAccount (key mint owner : Bytes) (amount : Json.Value) : Ledger → Change :=
  inOrder [storeTokenAccount key mint owner amount, (·.adjustSupply mint amount)]

end Settlement.Ledger
