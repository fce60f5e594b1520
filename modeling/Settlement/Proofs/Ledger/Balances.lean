import Settlement.Proofs.Ledger.Authority
import Settlement.Proofs.Ledger.Rollback
import Settlement.Proofs.Ledger.Store
import Settlement.Proofs.Program.Prepared

/-! Compressed balances as whole numbers. A call moves its amount from one balance to another, or
burns it, and then the sum of all balances falls by what was burned. -/

namespace Settlement

/-- What a value counts for in a sum. What is no whole number counts for nothing. -/
def Json.Value.count (v : Value) : Int := v.integer?.getD 0

namespace Call

/-- What a call adds to the balance of a key, less what it takes from it. -/
def gain (c : Call) (key : Bytes) : Int :=
  let share (a : AccountMeta) := if key = a.key then c.amount.count else 0
  match c.kind, c.accounts with
  | .compressedTransfer, [_, source, destination, _] => share destination - share source
  | .compressedBurn, [_, source, _, _] => -share source
  | _, _ => 0

/-- What a call takes out of the compressed balances for good. -/
def burned (c : Call) : Int := if c.kind = .compressedBurn then c.amount.count else 0

end Call

def burnedBy (calls : List Call) : Int := (calls.map Call.burned).sum

theorem burnedBy_nil : burnedBy [] = 0 := rfl

theorem burnedBy_append (cs ds : List Call) :
    burnedBy (cs ++ ds) = burnedBy cs + burnedBy ds := by
  simp only [burnedBy, List.map_append, List.sum_append]

theorem burnedBy_eq_zero {c : Call} (hkind : c.kind ≠ .compressedBurn) : burnedBy [c] = 0 := by
  simp [burnedBy, Call.burned, hkind]

theorem burnedBy_compressedBurn {c : Call} {n : Int} (hkind : c.kind = .compressedBurn)
    (hn : c.amount = .int n) : burnedBy [c] = n := by
  simp [burnedBy, Call.burned, hkind, hn, Json.Value.count]

def gainedBy (calls : List Call) (key : Bytes) : Int := (calls.map (·.gain key)).sum

namespace Ledger

open Outcome

def balance (l : Ledger) (key : Bytes) : Int := (l.compressedBalance key).count

/-- The sum of all compressed balances. -/
def total (l : Ledger) : Int := l.compressed.sum Json.Value.count

/-- Every balance is a whole number and not negative. -/
def Solvent (l : Ledger) : Prop :=
  ∀ key, ∃ n, (l.compressedBalance key).integer? = some n ∧ 0 ≤ n

section Balances

variable {l t : Ledger}

theorem count_of_integer? {v : Json.Value} {n : Int} (h : v.integer? = some n) : v.count = n := by
  rw [Json.Value.count, h, Option.getD_some]

theorem Solvent.balance (h : l.Solvent) (key : Bytes) :
    (l.compressedBalance key).integer? = some (l.balance key) ∧ 0 ≤ l.balance key := by
  obtain ⟨n, hn, hpos⟩ := h key
  have hbalance : l.balance key = n := count_of_integer? hn
  rw [hbalance]
  exact ⟨hn, hpos⟩

theorem WholeBalances.balance (h : l.WholeBalances) (key : Bytes) :
    (l.compressedBalance key).integer? = some (l.balance key) := by
  obtain ⟨n, hn⟩ := h key
  rw [hn, Ledger.balance, count_of_integer? hn]

theorem Solvent.whole (h : l.Solvent) : l.WholeBalances := by
  intro key
  obtain ⟨n, hn, -⟩ := h key
  exact ⟨n, hn⟩

/-- The ledger with so much more in one balance, or less if it is negative. -/
def shift (l : Ledger) (owner : Bytes) (n : Int) : Ledger :=
  l.setCompressed owner (.int (l.balance owner + n))

theorem balance_shift (l : Ledger) (owner key : Bytes) (n : Int) :
    (l.shift owner n).balance key = l.balance key + if key = owner then n else 0 := by
  rw [balance, shift, compressedBalance_setCompressed]
  by_cases hkey : key = owner
  · simp only [hkey, if_true]
    rfl
  · simp only [hkey, if_false, Int.add_zero]
    rfl

theorem total_shift (l : Ledger) (owner : Bytes) (n : Int) :
    (l.shift owner n).total = l.total + n := by
  have hold : ((l.compressed.get? owner).map Json.Value.count).getD 0 = l.balance owner := by
    rw [balance, compressedBalance]
    cases l.compressed.get? owner <;> rfl
  have hset := Store.sum_set Json.Value.count l.compressed owner (.int (l.balance owner + n))
  rw [hold] at hset
  have hnew : Json.Value.count (.int (l.balance owner + n)) = l.balance owner + n := rfl
  have hshift : (l.shift owner n).total =
    (l.compressed.set owner (.int (l.balance owner + n))).sum Json.Value.count := rfl
  have htotal : l.total = l.compressed.sum Json.Value.count := rfl
  omega

theorem WholeBalances.shift (h : l.WholeBalances) (owner : Bytes) (n : Int) :
    (l.shift owner n).WholeBalances :=
  h.setCompressed owner _

theorem Solvent.shift (h : l.Solvent) {owner : Bytes} {n : Int} (hn : 0 ≤ l.balance owner + n) :
    (l.shift owner n).Solvent := by
  intro key
  rw [Ledger.shift, compressedBalance_setCompressed]
  by_cases hkey : key = owner
  · exact ⟨_, by rw [if_pos hkey, Json.Value.integer?_int], hn⟩
  · rw [if_neg hkey]
    exact h key

theorem Solvent.of_compressed (h : l.Solvent) (hsame : t.compressed = l.compressed) :
    t.Solvent := by
  intro key
  rw [compressedBalance, hsame]
  exact h key

theorem balance_of_compressed (hsame : t.compressed = l.compressed) (key : Bytes) :
    t.balance key = l.balance key := by
  rw [balance, compressedBalance, hsame]
  rfl

theorem total_of_compressed (hsame : t.compressed = l.compressed) : t.total = l.total := by
  rw [total, hsame]
  rfl

end Balances

/-! What calls move. -/

structure Moved (l t : Ledger) (calls : List Call) : Prop where
  solvent : t.Solvent
  balance : ∀ key, t.balance key = l.balance key + gainedBy calls key
  total : t.total + burnedBy calls = l.total

namespace Moved

variable {l s t : Ledger}

theorem refl (h : l.Solvent) : Moved l l [] where
  solvent := h
  balance _ := (Int.add_zero _).symm
  total := Int.add_zero _

theorem trans {cs ds : List Call} (h : Moved l s cs) (h' : Moved s t ds) :
    Moved l t (cs ++ ds) where
  solvent := h'.solvent
  balance := by
    intro key
    rw [h'.balance, h.balance, gainedBy, gainedBy, gainedBy, List.map_append, List.sum_append]
    omega
  total := by
    have hfirst := h.total
    have hrest := h'.total
    rw [burnedBy_append]
    omega

theorem of_compressed {u : Ledger} {cs : List Call} (h : Moved l t cs)
    (hsame : u.compressed = t.compressed) : Moved l u cs where
  solvent := h.solvent.of_compressed hsame
  balance key := (balance_of_compressed hsame key).trans (h.balance key)
  total := by
    rw [total_of_compressed hsame]
    exact h.total

end Moved

section Calls

variable {caller : Bytes} {c : Call} {n : Int} {l t : Ledger}

theorem debitCompressed_whole (hn : c.amount = .int n) (hl : l.WholeBalances) (owner : Bytes) :
    debitCompressed c owner l = if n ≤ l.balance owner then .ok (l.shift owner (-n))
      else .error (rejection c "insufficient compressed balance") := by
  have hbalance := hl.balance owner
  have hless : (l.compressedBalance owner).less c.amount = .ok (decide (l.balance owner < n)) := by
    rw [hn, Json.Value.less_of_integer? hbalance]
  have hrest : (l.compressedBalance owner).sub c.amount = .ok (.int (l.balance owner - n)) := by
    rw [hn, Json.Value.sub_of_integer? hbalance]
  simp only [debitCompressed, hless, hrest, ok_bind, error_bind, decide_eq_true_eq]
  by_cases hcovered : n ≤ l.balance owner
  · rw [if_pos hcovered, if_neg (by omega), shift, ← Int.sub_eq_add_neg]
    rfl
  · rw [if_neg hcovered, if_pos (by omega)]

theorem debitCompressed_shift (hn : c.amount = .int n) (hl : l.WholeBalances) {owner : Bytes}
    (h : debitCompressed c owner l = .ok t) : n ≤ l.balance owner ∧ t = l.shift owner (-n) := by
  rw [debitCompressed_whole hn hl] at h
  split at h
  · next hcovered => exact ⟨hcovered, (Except.ok.inj h).symm⟩
  · cases h

theorem creditCompressed_whole (hn : c.amount = .int n) (hl : l.WholeBalances) (owner : Bytes) :
    creditCompressed c owner l = .ok (l.shift owner n) :=
  creditCompressed_int hn (hl.balance owner)

theorem transfer_moved {payer source destination system : AccountMeta}
    (hkind : c.kind = .compressedTransfer)
    (haccounts : c.accounts = [payer, source, destination, system]) (hn : c.amount = .int n)
    (hpos : 0 ≤ n) (hl : l.Solvent) (h : Invoked caller c l (.ok (), t)) : Moved l t [c] := by
  obtain ⟨s, u, hdebit, hcredit, -, hcompressed⟩ :=
    invoked_pair (changes_transfer hkind haccounts) h
  have hcounted : l.counted.Solvent := hl
  obtain ⟨hcovered, rfl⟩ := debitCompressed_shift hn hcounted.whole hdebit
  have hs : (l.counted.shift source.key (-n)).Solvent := hcounted.shift (by omega)
  -- The receiver's balance is read after the debit, so the two keys may be the same one.
  rw [creditCompressed_whole hn hs.whole] at hcredit
  cases hcredit
  have hgain (key : Bytes) : gainedBy [c] key =
      (if key = destination.key then n else 0) - (if key = source.key then n else 0) := by
    simp [gainedBy, Call.gain, hkind, haccounts, hn, Json.Value.count]
  have hburned : burnedBy [c] = 0 := burnedBy_eq_zero (by simp [hkind])
  refine Moved.of_compressed ⟨?_, fun key => ?_, ?_⟩ hcompressed
  · have hdestination := (hs.balance destination.key).2
    exact hs.shift (by omega)
  · have hbalance : l.counted.balance key = l.balance key := rfl
    rw [balance_shift, balance_shift, hgain, hbalance]
    split <;> split <;> omega
  · have htotal : l.counted.total = l.total := rfl
    rw [total_shift, total_shift, hburned, htotal]
    omega

theorem compressedBurn_moved {payer source mint system : AccountMeta}
    (hkind : c.kind = .compressedBurn) (haccounts : c.accounts = [payer, source, mint, system])
    (hn : c.amount = .int n) (hl : l.Solvent) (h : Invoked caller c l (.ok (), t)) :
    Moved l t [c] := by
  obtain ⟨s, u, hdebit, hreduce, -, hcompressed⟩ :=
    invoked_pair (changes_compressedBurn hkind haccounts) h
  have hcounted : l.counted.Solvent := hl
  obtain ⟨hcovered, rfl⟩ := debitCompressed_shift hn hcounted.whole hdebit
  obtain ⟨hu, -⟩ := reduceSupply_effect hn hreduce
  have hgain (key : Bytes) : gainedBy [c] key = if key = source.key then -n else 0 := by
    simp [gainedBy, Call.gain, hkind, haccounts, hn, Json.Value.count, apply_ite Neg.neg]
  have hburned : burnedBy [c] = n := burnedBy_compressedBurn hkind hn
  refine Moved.of_compressed ⟨?_, fun key => ?_, ?_⟩ (hcompressed.trans hu)
  · exact hcounted.shift (by omega)
  · rw [balance_shift, hgain]
    rfl
  · have htotal : l.counted.total = l.total := rfl
    rw [total_shift, hburned, htotal]
    omega

theorem tokenBurn_moved {token mint owner : AccountMeta} (hkind : c.kind = .tokenBurn)
    (haccounts : c.accounts = [token, mint, owner]) (hn : c.amount = .int n) (hl : l.Solvent)
    (h : Invoked caller c l (.ok (), t)) : Moved l t [c] := by
  obtain ⟨hcompressed, -⟩ := tokenBurn_effect hn (changes_tokenBurn hkind haccounts) h
  have hgain (key : Bytes) : gainedBy [c] key = 0 := by
    simp [gainedBy, Call.gain, hkind]
  have hburned : burnedBy [c] = 0 := burnedBy_eq_zero (by simp [hkind])
  have hmoved : Moved l l [c] := ⟨hl, fun key => by rw [hgain]; omega, by rw [hburned]; omega⟩
  exact hmoved.of_compressed hcompressed

theorem Invoked.moved (h : Invoked caller c l (.ok (), t)) (hc : c.Prepared n) (hpos : 0 ≤ n)
    (hl : l.Solvent) : Moved l t [c] := by
  cases hc with
  | transfer hkind haccounts hn => exact transfer_moved hkind haccounts hn hpos hl h
  | compressedBurn hkind haccounts hn => exact compressedBurn_moved hkind haccounts hn hl h
  | tokenBurn hkind haccounts hn => exact tokenBurn_moved hkind haccounts hn hl h

theorem settles_moved {cs : List Call} (settles : host.Settles caller cs l t)
    (hcs : ∀ c ∈ cs, ∃ n : Int, c.Prepared n ∧ 0 ≤ n ∧ n < 2 ^ 64) (hl : l.Solvent) :
    Moved l t cs := by
  induction settles with
  | nil => exact .refl hl
  | @cons c cs l s t first rest ih =>
    obtain ⟨n, hprepared, hpos, -⟩ := hcs c List.mem_cons_self
    have hmoved := (invoked_of_host first).moved hprepared hpos hl
    exact hmoved.trans (ih (fun d hd => hcs d (List.mem_cons_of_mem _ hd)) hmoved.solvent)

end Calls

/-- A receipt accounts for every balance and for the sum of them all. -/
theorem execute_moved {l : Ledger} {accounts : List AccountView} {data : Bytes} {receipt : Receipt}
    (h : (l.execute accounts data).outcome = .ok receipt) (hl : l.Solvent) :
    Moved l (l.execute accounts data).ledger receipt.calls := by
  obtain ⟨-, validated, t, m, settles, hledger⟩ := execute_receipt h
  have hopened : (l.opened accounts).Solvent := hl
  have hmoved := settles_moved settles validated.prepared hopened
  rw [hledger]
  exact ⟨hmoved.solvent, hmoved.balance, hmoved.total⟩

/-! A payment to try it on: the user with the number 1 pays 120, of which 100 are for the
organization with the number 1 and 20 for the pool. -/

namespace Sample

/-- The address of the user with the number 1, for bump 255. -/
def userKey : Bytes :=
  [171, 85, 49, 226, 102, 113, 254, 91, 3, 14, 50, 145, 107, 206, 184, 77, 238, 181, 51, 46, 206,
   222, 199, 163, 245, 55, 229, 186, 118, 169, 139, 191]

/-- The address of the incentive pool, for bump 255. -/
def poolKey : Bytes :=
  [7, 59, 185, 245, 252, 161, 211, 231, 145, 88, 147, 185, 235, 210, 92, 46, 133, 208, 158, 217, 5,
   191, 59, 53, 223, 128, 190, 44, 238, 155, 72, 141]

/-- A ledger with a balance of the user and one of the organization. -/
def funded (user organization : Int) : Ledger :=
  ((ledger 1000).setCompressed userKey (.int user)).setCompressed organizationKey
    (.int organization)

def splitTransferViews : List AccountView :=
  let l := ledger 1000
  [l.view (key 2) true false, l.view recordKey false false, l.view (key 4) false true,
    l.view userKey false false, l.view organizationKey false false, l.view poolKey false false,
    l.view (key 5) true true, l.view systemAddress false false,
    l.view Config.compressedTokenProgramAddress false false]

def splitTransfer : Bytes :=
  instruction (.splitTransfer ⟨1, 1, 120, 255, 255, 255, "mixed_payment"⟩)

theorem funded_solvent {user organization : Int} (huser : 0 ≤ user)
    (horganization : 0 ≤ organization) : (funded user organization).Solvent := by
  intro k
  rw [funded, compressedBalance_setCompressed, compressedBalance_setCompressed]
  split
  · exact ⟨organization, rfl, horganization⟩
  · split
    · exact ⟨user, rfl, huser⟩
    · next hother _ =>
      refine ⟨0, ?_, Int.le_refl 0⟩
      have hempty : (ledger 1000).compressed.get? k = none := by
        have hset : (ledger 1000).compressed = Store.empty.set organizationKey (.int 100) := rfl
        rw [hset, Store.get?_set_of_ne hother]
        rfl
      rw [compressedBalance, hempty]
      rfl

end Sample

end Ledger
end Settlement
