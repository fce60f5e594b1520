import Settlement.Ledger.Host

/-! What a transaction saves of a ledger before it starts. A value has room in a snapshot unless a
whole number in it is beyond 64 bits, text in it has no encoding, or lists and objects in it stand
too deep inside each other. -/

namespace Settlement

namespace Json.Value

def savedText (t : Text) : Outcome Unit :=
  if t.toChars?.isSome then .ok () else .error .loneSurrogate

mutual

/-- Whether a value is saved where so many levels are left below it. -/
def saved (room : Nat) : Value → Outcome Unit
  | .int n => if -2 ^ 63 ≤ n ∧ n < 2 ^ 64 then .ok () else .error .wordRange
  | .text t => savedText t
  | .list items => savedItems room items
  | .object fields => savedFields room fields
  | .null | .bool _ | .float _ => .ok ()

def savedItems : Nat → List Value → Outcome Unit
  | _, [] => .ok ()
  | 0, _ :: _ => .error .noRoom
  | room + 1, v :: vs => do
    saved room v
    savedItems (room + 1) vs

def savedFields : Nat → List (Text × Value) → Outcome Unit
  | _, [] => .ok ()
  | 0, _ :: _ => .error .noRoom
  | room + 1, (n, v) :: fs => do
    savedText n
    saved room v
    savedFields (room + 1) fs

end

theorem saved_int {room : Nat} {n : Int} :
    saved room (.int n) = .ok () ↔ -2 ^ 63 ≤ n ∧ n < 2 ^ 64 := by
  simp only [saved]
  split <;> simp_all

end Json.Value

namespace Ledger

structure Snapshot where
  accounts : Store Account
  compressed : Store Json.Value
  callCount : Nat

/-- The serializer of snapshots writes no more levels of lists and objects inside each other. -/
def snapshotLevels : Nat := 511

/-- The levels that the serializer leaves below a balance, which stands in the map of the balances
in the snapshot. The fields of an account stand one level deeper. -/
def balanceRoom : Nat := snapshotLevels - 2

def snapshot (l : Ledger) : Outcome Snapshot := do
  l.accounts.values.forM fun a => a.lamports.saved (balanceRoom - 1)
  l.compressed.values.forM fun balance => balance.saved balanceRoom
  return ⟨l.accounts, l.compressed, l.callLog.length⟩

def restore (l : Ledger) (s : Snapshot) : Ledger :=
  { l with
    accounts := s.accounts
    compressed := s.compressed
    callLog := l.callLog.take s.callCount }

end Ledger
end Settlement
