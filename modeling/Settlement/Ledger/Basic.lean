import Settlement.Ledger.Store
import Settlement.Program.Basic

/-! A ledger in memory: stored accounts, compressed balances, the log of the calls that were
applied, and what belongs to the transaction under way. A balance is the value it was given. -/

namespace Settlement

structure Ledger where
  program : Program
  accounts : Store Account
  compressed : Store Json.Value
  callLog : List Call
  signers : List Bytes
  callIndex : Nat
  /-- The calls that are to fail, by index. The latest entry for an index counts. -/
  failing : List (Json.Value × Json.Value)
  metrics : Option Metrics

namespace Ledger

def programs (l : Ledger) : Programs := l.program.rules.programs

def ofConfig (c : Config) (monitored : Bool) : Outcome Ledger := do
  let programs ← Programs.ofConfig c
  let program ← Program.ofConfig c
  let executable : Account := { Account.empty with executable := true }
  let keys := [programs.settlement, programs.token, programs.compressedToken, programs.system]
  let accounts := keys.foldl (fun accounts key => accounts.set key executable) Store.empty
  return {
    program := program
    accounts := accounts
    compressed := .empty
    callLog := []
    signers := []
    callIndex := 0
    failing := []
    metrics := if monitored then some .empty else none }

def setAccount (l : Ledger) (key : Bytes) (a : Account) : Ledger :=
  { l with accounts := l.accounts.set key a }

def setCompressed (l : Ledger) (owner : Bytes) (amount : Json.Value) : Ledger :=
  { l with compressed := l.compressed.set owner amount }

def compressedBalance (l : Ledger) (owner : Bytes) : Json.Value :=
  (l.compressed.get? owner).getD (.int 0)

def view (l : Ledger) (key : Bytes) (signer writable : Bool) : AccountView :=
  ⟨key, (l.accounts.get? key).getD .empty, signer, writable⟩

def account (l : Ledger) (key : Bytes) : Outcome Account :=
  match l.accounts.get? key with
  | some a => .ok a
  | none => .error .missingKey

def tokenBalance (l : Ledger) (key : Bytes) : Outcome Nat := do
  return (← TokenAccount.decode (← l.account key).data).amount

def mintSupply (l : Ledger) (mint : Bytes) : Outcome Nat := do
  Mint.supply (← l.account mint).data

/-- Adds to the supply of a mint. A mint that is not stored has none to keep. -/
def adjustSupply (l : Ledger) (mint : Bytes) (change : Json.Value) : Outcome Ledger :=
  match l.accounts.get? mint with
  | none => .ok l
  | some a => do
    let supply ← Json.Value.add (.int (← Mint.supply a.data)) change
    let data ← Mint.withSupply a.data (← supply.fieldInt)
    return l.setAccount mint { a with data := data }

/-- Makes the call of an index fail. The index may be of any kind that can be a key. -/
def failCall (l : Ledger) (index detail : Json.Value) : Outcome Ledger :=
  if index.isKey then .ok { l with failing := (index, detail) :: l.failing }
  else .error .wrongKind

def injected? (l : Ledger) (index : Nat) : Option Json.Value :=
  (l.failing.find? fun f => f.1.same (.int index)).map Prod.snd

end Ledger
end Settlement
