import Settlement.Ledger.Host
import Settlement.Proofs.Fault.Outcome
import Settlement.Proofs.Json.Whole

/-! What the changes of a call do to a ledger. They work on the stored accounts and the compressed
balances, and neither read nor write anything else. -/

namespace Settlement

namespace Ledger

open Outcome

/-! The changes of calls on the accounts that their kind needs. -/

section Effects

variable {c : Call} {payer source destination mint system token owner : AccountMeta}

theorem changes_transfer (hkind : c.kind = .compressedTransfer)
    (haccounts : c.accounts = [payer, source, destination, system]) :
    changes c = .ok [debitCompressed c source.key, creditCompressed c destination.key] := by
  simp only [changes, hkind, haccounts]

theorem changes_compressedBurn (hkind : c.kind = .compressedBurn)
    (haccounts : c.accounts = [payer, source, mint, system]) :
    changes c = .ok [debitCompressed c source.key, reduceSupply c mint.key] := by
  simp only [changes, hkind, haccounts]

theorem changes_tokenBurn (hkind : c.kind = .tokenBurn)
    (haccounts : c.accounts = [token, mint, owner]) :
    changes c = .ok [debitToken c token.key mint.key owner.key, reduceSupply c mint.key] := by
  simp only [changes, hkind, haccounts]

end Effects

/-! The changes that succeed. -/

theorem debitCompressed_ok {c : Call} {owner : Bytes} {l l' : Ledger} :
    debitCompressed c owner l = .ok l' ↔ (l.compressedBalance owner).less c.amount = .ok false ∧
      ∃ rest, (l.compressedBalance owner).sub c.amount = .ok rest ∧
        l' = l.setCompressed owner rest := by
  simp only [debitCompressed, error_bind, bind_eq_ok, guard_eq_ok, Bool.not_eq_true]
  constructor
  · rintro ⟨b, hless, rfl, rest, hrest, h⟩
    exact ⟨hless, rest, hrest, (Except.ok.inj h).symm⟩
  · rintro ⟨hless, rest, hrest, rfl⟩
    exact ⟨false, hless, rfl, rest, hrest, rfl⟩

theorem creditCompressed_ok {c : Call} {owner : Bytes} {l l' : Ledger} :
    creditCompressed c owner l = .ok l' ↔
      ∃ sum, (l.compressedBalance owner).add c.amount = .ok sum ∧
        l' = l.setCompressed owner sum := by
  simp only [creditCompressed, bind_eq_ok]
  constructor
  · rintro ⟨sum, hsum, h⟩
    exact ⟨sum, hsum, (Except.ok.inj h).symm⟩
  · rintro ⟨sum, hsum, rfl⟩
    exact ⟨sum, hsum, rfl⟩

theorem debitToken_ok {c : Call} {n : Int} (hn : c.amount = .int n) {key mint owner : Bytes}
    {l l' : Ledger} (h : debitToken c key mint owner l = .ok l') :
    ∃ a token data, l.accounts.get? key = some a ∧ TokenAccount.decode a.data = .ok token ∧
      token.owner = owner ∧ token.mint = mint ∧ n ≤ token.amount ∧
      TokenAccount.withAmount a.data (token.amount - n) = .ok data ∧
      l' = l.setAccount key { a with data := data } := by
  simp only [debitToken] at h
  cases ha : l.accounts.get? key with
  | none => simp only [ha, reduceCtorEq] at h
  | some a =>
    simp only [ha, hn, error_bind, bind_eq_ok, guard_eq_ok, ne_eq, Classical.not_not,
      Json.Value.less_int, Json.Value.sub_int] at h
    obtain ⟨token, htoken, howner, hmint, _, hless, hcovered, rest, hrest, m, hm, data, hdata,
      hl⟩ := h
    cases hless
    cases hrest
    cases hm
    have hle : n ≤ token.amount := by simpa using hcovered
    exact ⟨a, token, data, rfl, htoken, howner, hmint, hle, hdata, (Except.ok.inj hl).symm⟩

theorem adjustSupply_ok {mint : Bytes} {change : Json.Value} {l l' : Ledger}
    (h : l.adjustSupply mint change = .ok l') :
    l' = l ∨ ∃ a data, l.accounts.get? mint = some a ∧
      l' = l.setAccount mint { a with data := data } := by
  simp only [adjustSupply] at h
  cases ha : l.accounts.get? mint with
  | none =>
    simp only [ha] at h
    exact .inl (Except.ok.inj h).symm
  | some a =>
    simp only [ha, bind_eq_ok] at h
    obtain ⟨_, _, _, _, _, _, data, _, hl⟩ := h
    exact .inr ⟨a, data, rfl, (Except.ok.inj hl).symm⟩

theorem reduceSupply_int {c : Call} {n : Int} (hn : c.amount = .int n) (mint : Bytes) (l : Ledger) :
    reduceSupply c mint l = l.adjustSupply mint (.int (-n)) := by
  simp only [reduceSupply, hn, Json.Value.neg_int, ok_bind]

/-! The changes that fail. A whole amount can be added to and taken from a whole balance, and the
only thing that a supply cannot take is an amount above it or data too short for it. -/

theorem withSupply_error {data : Bytes} {supply : Nat} {n : Int} {e : Fault}
    (hn : 0 ≤ n) (hsupply : Mint.supply data = .ok supply)
    (h : Mint.withSupply data (supply + -n) = .error e) : supply < n ∧ e = .fieldRange := by
  simp only [Mint.supply, guard_eq_ok] at hsupply
  obtain ⟨hlength, hvalue⟩ := hsupply
  have hslice : (data.slice Mint.supplyOffset 8).length ≤ 8 := List.length_take_le _ _
  have hlt := Bytes.value_lt (data.slice Mint.supplyOffset 8)
  have hpow := Nat.pow_le_pow_right (show 0 < 256 by omega) hslice
  rw [Except.ok.inj hvalue] at hlt
  have hbound : (supply : Int) < 256 ^ 8 := by
    have hnat : supply < 256 ^ 8 := Nat.lt_of_lt_of_le hlt hpow
    omega
  simp only [Mint.withSupply, Field.unsigned, hlength, if_false] at h
  by_cases hcovered : n ≤ supply
  · have hfits : 0 ≤ (supply : Int) + -n ∧ (supply : Int) + -n < 256 ^ 8 := by omega
    simp only [hfits, and_self, if_true, ok_bind] at h
    cases h
  · have hmissing : ¬ (0 ≤ (supply : Int) + -n ∧ (supply : Int) + -n < 256 ^ 8) := by omega
    simp only [hmissing, if_false, error_bind, Except.error.injEq] at h
    exact ⟨by omega, h.symm⟩

theorem adjustSupply_error {mint : Bytes} {n : Int} (hn : 0 ≤ n) {l : Ledger} {e : Fault}
    (h : l.adjustSupply mint (.int (-n)) = .error e) :
    ∃ a, l.accounts.get? mint = some a ∧
      (Mint.supply a.data = .error .fieldBounds ∧ e = .fieldBounds ∨
        ∃ supply, Mint.supply a.data = .ok supply ∧ supply < n ∧ e = .fieldRange) := by
  simp only [adjustSupply] at h
  cases ha : l.accounts.get? mint with
  | none => simp only [ha, reduceCtorEq] at h
  | some a =>
    refine ⟨a, rfl, ?_⟩
    cases hsupply : Mint.supply a.data with
    | error e' =>
      have he' : e' = .fieldBounds := by
        simp only [Mint.supply, guard_eq_error, reduceCtorEq, and_false, or_false] at hsupply
        exact hsupply.2.symm
      simp only [ha, hsupply, error_bind, Except.error.injEq] at h
      exact .inl ⟨by rw [he'], by rw [← h, he']⟩
    | ok supply =>
      have hint : Json.Value.fieldInt (.int (supply + -n)) = .ok (supply + -n) := rfl
      simp only [ha, hsupply, ok_bind, Json.Value.add_int, hint, bind_eq_error] at h
      rcases h with h | ⟨_, _, h⟩
      · obtain ⟨hless, he⟩ := withSupply_error hn hsupply h
        exact .inr ⟨supply, rfl, hless, he⟩
      · cases h

theorem debitCompressed_error {c : Call} {n b : Int} (hn : c.amount = .int n) {owner : Bytes}
    {l : Ledger} (hb : (l.compressedBalance owner).integer? = some b) {e : Fault}
    (h : debitCompressed c owner l = .error e) :
    e = rejection c "insufficient compressed balance" := by
  simp only [debitCompressed, hn, error_bind, ok_bind, Json.Value.less_of_integer? hb,
    Json.Value.sub_of_integer? hb, guard_eq_error] at h
  rcases h with ⟨_, h⟩ | ⟨_, h⟩
  · exact h.symm
  · cases h

theorem creditCompressed_int {c : Call} {n b : Int} (hn : c.amount = .int n) {owner : Bytes}
    {l : Ledger} (hb : (l.compressedBalance owner).integer? = some b) :
    creditCompressed c owner l = .ok (l.setCompressed owner (.int (b + n))) := by
  simp only [creditCompressed, hn, Json.Value.add_of_integer? hb, ok_bind]
  rfl

/-! Balances after a change. -/

theorem compressedBalance_setCompressed (l : Ledger) (owner key : Bytes) (v : Json.Value) :
    (l.setCompressed owner v).compressedBalance key =
      if key = owner then v else l.compressedBalance key := by
  simp only [compressedBalance, setCompressed, Store.get?_set]
  by_cases h : key = owner
  · simp only [h, if_true, Option.getD_some]
  · simp only [h, if_false]

/-! Changes work on the stores only. -/

def withStores (t l : Ledger) : Ledger :=
  { t with accounts := l.accounts, compressed := l.compressed }

/-- A change that works the same on every ledger with the same stores, and changes nothing else. -/
def Local (change : Ledger → Outcome Ledger) : Prop :=
  ∀ t l : Ledger, change (t.withStores l) = (change l).map t.withStores

theorem Local.frame {change : Ledger → Outcome Ledger} (hlocal : Local change) {l l' : Ledger}
    (h : change l = .ok l') : l' = l.withStores l' := by
  have hself := hlocal l l
  have hsame : l.withStores l = l := rfl
  rw [hsame, h] at hself
  exact Except.ok.inj hself

theorem debitCompressed_local (c : Call) (owner : Bytes) : Local (debitCompressed c owner) := by
  intro t l
  simp only [debitCompressed, error_bind, map_bind, map_guard, map_pure]
  rfl

theorem creditCompressed_local (c : Call) (owner : Bytes) : Local (creditCompressed c owner) := by
  intro t l
  simp only [creditCompressed, map_bind, map_pure]
  rfl

theorem adjustSupply_local (mint : Bytes) (change : Json.Value) :
    Local (·.adjustSupply mint change) := by
  intro t l
  have haccounts : (t.withStores l).accounts = l.accounts := rfl
  simp only [adjustSupply, haccounts]
  cases l.accounts.get? mint with
  | none => rfl
  | some a =>
    simp only [map_bind, map_pure]
    rfl

theorem reduceSupply_local (c : Call) (mint : Bytes) : Local (reduceSupply c mint) := by
  intro t l
  simp only [reduceSupply, map_bind]
  exact bind_congr fun change => adjustSupply_local mint change t l

theorem debitToken_local (c : Call) (key mint owner : Bytes) :
    Local (debitToken c key mint owner) := by
  intro t l
  have haccounts : (t.withStores l).accounts = l.accounts := rfl
  simp only [debitToken, haccounts]
  cases l.accounts.get? key with
  | none => rfl
  | some a =>
    simp only [error_bind, map_bind, map_guard, map_pure]
    rfl

theorem changes_local {c : Call} {cs : List (Ledger → Outcome Ledger)} (h : changes c = .ok cs) :
    ∀ change ∈ cs, Local change := by
  unfold changes at h
  split at h
  · cases h
    simp only [List.forall_mem_cons]
    exact ⟨debitCompressed_local c _, creditCompressed_local c _, nofun⟩
  · cases h
    simp only [List.forall_mem_cons]
    exact ⟨debitCompressed_local c _, reduceSupply_local c _, nofun⟩
  · cases h
  · cases h
  · cases h
    simp only [List.forall_mem_cons]
    exact ⟨debitToken_local c _ _ _, reduceSupply_local c _, nofun⟩
  · cases h

end Ledger
end Settlement
