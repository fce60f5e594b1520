import Settlement.Ledger.Basic

/-! How the ledger answers calls, in the place of the token programs. A call that fails halfway
keeps what it has done so far. -/

namespace Settlement.Ledger

def handles (l : Ledger) (c : Call) : Bool :=
  match c.kind with
  | .tokenBurn => c.program == l.programs.token
  | .compressedTransfer | .compressedBurn =>
    c.program == l.programs.compressedToken && c.program != l.programs.token
  | .unknown _ => false

def rejection (c : Call) (reason : String) : Fault :=
  .signal (.external c.program (.text (Text.of reason)))

/-- The keys that sign a call: those of the transaction and those that the lent capabilities derive.
-/
def signedKeys (l : Ledger) (caller : Bytes) (c : Call) : Outcome (List Bytes) :=
  match c.signers.mapM fun seeds => createAddress seeds caller with
  | .ok lent => .ok (l.signers ++ lent)
  | .error _ => .error (rejection c "invalid signer seeds")

def authorize (l : Ledger) (caller : Bytes) (c : Call) : Outcome Unit := do
  if !l.handles c then refuse (.noHandler c.kind.name c.program)
  let signed ← l.signedKeys caller c
  if c.accounts.any fun a => a.signer && !signed.contains a.key then
    .error (rejection c "missing required signature")
  match l.injected? l.callIndex with
  | some detail => .error (.signal (.external c.program detail))
  | none => .ok ()

/-- A change of the ledger that may fail, with the ledger as it is then. -/
abbrev Change := Outcome Unit × Ledger

/-- Makes changes one after the other, up to the first that fails. -/
def inOrder : List (Ledger → Outcome Ledger) → Ledger → Change
  | [], l => (.ok (), l)
  | change :: rest, l =>
    match change l with
    | .ok next => inOrder rest next
    | .error e => (.error e, l)

def debitCompressed (c : Call) (owner : Bytes) (l : Ledger) : Outcome Ledger := do
  let balance := l.compressedBalance owner
  if ← balance.less c.amount then .error (rejection c "insufficient compressed balance")
  return l.setCompressed owner (← balance.sub c.amount)

def creditCompressed (c : Call) (owner : Bytes) (l : Ledger) : Outcome Ledger := do
  return l.setCompressed owner (← (l.compressedBalance owner).add c.amount)

/-- Takes the amount of a call out of a token account that the owner and the mint belong to. -/
def debitToken (c : Call) (key mint owner : Bytes) (l : Ledger) : Outcome Ledger :=
  match l.accounts.get? key with
  | none => .error (rejection c "token account not found")
  | some a => do
    let token ← TokenAccount.decode a.data
    if token.owner ≠ owner then .error (rejection c "owner does not match")
    if token.mint ≠ mint then .error (rejection c "mint mismatch")
    let balance := Json.Value.int token.amount
    if ← balance.less c.amount then .error (rejection c "insufficient funds")
    let data ← TokenAccount.withAmount a.data (← (← balance.sub c.amount).wholeOr .noMember)
    return l.setAccount key { a with data := data }

def reduceSupply (c : Call) (mint : Bytes) (l : Ledger) : Outcome Ledger := do
  l.adjustSupply mint (← c.amount.neg)

/-- What a call changes. The accounts have to be as many as the kind of call needs. -/
def changes (c : Call) : Outcome (List (Ledger → Outcome Ledger)) :=
  match c.kind, c.accounts with
  | .compressedTransfer, [_, source, destination, _] =>
    .ok [debitCompressed c source.key, creditCompressed c destination.key]
  | .compressedBurn, [_, source, mint, _] =>
    .ok [debitCompressed c source.key, reduceSupply c mint.key]
  | .compressedTransfer, _ | .compressedBurn, _ => .error .wrongCount
  | _, [tokenAccount, mint, owner] =>
    .ok [debitToken c tokenAccount.key mint.key owner.key, reduceSupply c mint.key]
  | _, _ => .error .wrongCount

def logCall (c : Call) (l : Ledger) : Outcome Ledger := .ok { l with callLog := l.callLog ++ [c] }

/-- Answers a call. It counts as a call of the transaction whatever comes of it. -/
def invoke (caller : Bytes) (c : Call) (l : Ledger) : Change :=
  let counted := { l with callIndex := l.callIndex + 1 }
  match l.authorize caller c, changes c with
  | .error e, _ | .ok (), .error e => (.error e, counted)
  | .ok (), .ok changes => inOrder (changes ++ [logCall c]) counted

def host : Host Ledger := ⟨invoke⟩

end Settlement.Ledger
