import Settlement.Proofs.Account.Layout
import Settlement.Proofs.Ledger.Supply

/-! The creation of a token account: what it leaves behind where it ends well, and where the supply
of the mint cannot take the amount. -/

namespace Settlement

open Outcome

namespace Ledger

section Creation

variable {l t : Ledger} {key mint owner : Bytes} {a : Account} {n : Int}

def withToken (l : Ledger) (key data : Bytes) : Ledger :=
  l.setAccount key { Account.empty with owner := l.programs.token, data := data }

/-- A creation ends at the amount, at the supply, or well. -/
inductive Ends (l : Ledger) (key mint owner : Bytes) (n : Int) : Change → Prop
  | refused : ¬ (0 ≤ n ∧ n < 2 ^ 64) → Ends l key mint owner n (.error .fieldRange, l)
  | stranded {data : Bytes} {e : Fault} : 0 ≤ n → n < 2 ^ 64 →
      TokenAccount.pack mint owner n = .ok data →
      (l.withToken key data).adjustSupply mint (.int n) = .error e →
      Ends l key mint owner n (.error e, l.withToken key data)
  | created {data : Bytes} {t : Ledger} : 0 ≤ n → n < 2 ^ 64 →
      TokenAccount.pack mint owner n = .ok data →
      (l.withToken key data).adjustSupply mint (.int n) = .ok t →
      Ends l key mint owner n (.ok (), t)

theorem storeTokenAccount_int (key mint owner : Bytes) (n : Int) (l : Ledger) :
    storeTokenAccount key mint owner (.int n) l =
      (TokenAccount.pack mint owner n).map (l.withToken key) := by
  have hint : (Json.Value.int n).fieldInt = .ok n := rfl
  rw [storeTokenAccount, hint, ok_bind]
  cases TokenAccount.pack mint owner n <;> rfl

theorem createTokenAccount_ends (l : Ledger) (key mint owner : Bytes) (n : Int) :
    Ends l key mint owner n (createTokenAccount key mint owner (.int n) l) := by
  rw [createTokenAccount, inOrder, storeTokenAccount_int]
  by_cases hword : 0 ≤ n ∧ n < 2 ^ 64
  · obtain ⟨data, hpack⟩ := TokenAccount.exists_pack mint owner hword.1 hword.2
    rw [hpack]
    cases hadjust : (l.withToken key data).adjustSupply mint (.int n) with
    | error e =>
      simp only [Except.map, inOrder, hadjust]
      exact .stranded hword.1 hword.2 hpack hadjust
    | ok t =>
      simp only [Except.map, inOrder, hadjust]
      exact .created hword.1 hword.2 hpack hadjust
  · rw [TokenAccount.pack_error mint owner hword]
    exact .refused hword

/-- The account at a key is the token program's, and it is read back as what it was made of. -/
def HoldsNew (l : Ledger) (key mint owner : Bytes) (n : Int) (t : Ledger) : Prop :=
  ∃ data, t.accounts.get? key = some { Account.empty with
      owner := l.programs.token, data := data } ∧ data.length = TokenAccount.size ∧
    TokenAccount.decode data = .ok ⟨mint, owner, n.toNat⟩

theorem withToken_holdsNew (l : Ledger) (key : Bytes) {data : Bytes} (hmint : mint.length = 32)
    (howner : owner.length = 32) (hpack : TokenAccount.pack mint owner n = .ok data) :
    HoldsNew l key mint owner n (l.withToken key data) := by
  obtain ⟨hsize, hdecode, -⟩ := TokenAccount.pack_ok hpack
  rw [Bytes.fit_of_length hmint, Bytes.fit_of_length howner] at hdecode
  exact ⟨data, Store.get?_set_self _ _ _, hsize, hdecode⟩

theorem withToken_get?_of_ne {data other : Bytes} (h : other ≠ key) :
    (l.withToken key data).accounts.get? other = l.accounts.get? other :=
  Store.get?_set_of_ne h _

/-- A stored supply takes an amount if the sum is a word. -/
theorem adjustSupply_stored (ha : l.accounts.get? mint = some a) {supply : Nat}
    (hsupply : Mint.supply a.data = .ok supply) (hpos : 0 ≤ n) (hlt : supply + n < 2 ^ 64) :
    ∃ data, Mint.withSupply a.data (supply + n) = .ok data ∧
      l.adjustSupply mint (.int n) = .ok (l.setAccount mint { a with data := data }) := by
  obtain ⟨hlong, -⟩ := guard_eq_ok.1 hsupply
  obtain ⟨data, hdata⟩ : ∃ data, Mint.withSupply a.data (supply + n) = .ok data :=
    ⟨_, Mint.withSupply_ok.2 ⟨⟨by omega, hlt⟩, Nat.not_lt.1 hlong, rfl⟩⟩
  have hint : (Json.Value.int (supply + n)).fieldInt = .ok (supply + n) := rfl
  refine ⟨data, hdata, ?_⟩
  simp only [adjustSupply, ha, hsupply, ok_bind, Json.Value.add_int, hint, hdata]
  rfl

/-- What a creation leaves behind that ends well: the account and a supply higher by its amount. -/
structure Created (l : Ledger) (key mint owner : Bytes) (n : Int) (t : Ledger) : Prop where
  nonneg : 0 ≤ n
  account : HoldsNew l key mint owner n t
  minted : ∃ a data supply, l.accounts.get? mint = some a ∧
    t.accounts.get? mint = some { a with data := data } ∧
    Bytes.SameOutside Mint.supplyOffset 8 a.data data ∧
    Mint.supply a.data = .ok supply ∧ Mint.supply data = .ok (supply + n.toNat)
  others : ∀ other, other ≠ key → other ≠ mint → t.accounts.get? other = l.accounts.get? other
  frame : t = { l with accounts := t.accounts }

/-- What it leaves behind where the supply cannot take the amount: the account alone. -/
structure Stray (l : Ledger) (key mint owner : Bytes) (n : Int) (t : Ledger) : Prop where
  account : HoldsNew l key mint owner n t
  others : ∀ other, other ≠ key → t.accounts.get? other = l.accounts.get? other
  frame : t = { l with accounts := t.accounts }

theorem created_of_adjustSupply (ha : l.accounts.get? mint = some a) (hne : mint ≠ key)
    (hmint : mint.length = 32) (howner : owner.length = 32) (hpos : 0 ≤ n) {data : Bytes}
    (hpack : TokenAccount.pack mint owner n = .ok data)
    (hadjust : (l.withToken key data).adjustSupply mint (.int n) = .ok t) :
    Created l key mint owner n t := by
  have hstored : (l.withToken key data).accounts.get? mint = some a := by
    rw [withToken_get?_of_ne hne, ha]
  obtain ⟨supply, written, hsupply, hwritten, rfl⟩ := adjustSupply_int hadjust hstored
  have hsum : (supply + n).toNat = supply + n.toNat := by omega
  have hkept {other : Bytes} (h : other ≠ mint) :
      ((l.withToken key data).setAccount mint { a with data := written }).accounts.get? other =
        (l.withToken key data).accounts.get? other := Store.get?_set_of_ne h _
  refine ⟨hpos, ?_, ⟨a, written, supply, ha, Store.get?_set_self _ _ _,
    Mint.withSupply_sameOutside hwritten, hsupply, ?_⟩, ?_, rfl⟩
  · obtain ⟨data', hdata', hread⟩ := withToken_holdsNew l key hmint howner hpack
    exact ⟨data', (hkept hne.symm).trans hdata', hread⟩
  · rw [(Mint.supply_withSupply hwritten).2, hsum]
  · intro other hkey hother
    rw [hkept hother, withToken_get?_of_ne hkey]

/-- A creation at a free key ends well exactly if the amount and the new supply are words. A
creation that fails leaves the accounts as they are only if the amount is no word. Otherwise the
account stays, and the supply does not count it. -/
theorem createTokenAccount_kept_iff (ha : l.accounts.get? mint = some a)
    (hfree : l.accounts.get? key = none) (hmint : mint.length = 32) (howner : owner.length = 32) :
    let answer := createTokenAccount key mint owner (.int n) l
    (answer.1 = .ok () ↔ 0 ≤ n ∧ ∃ supply, Mint.supply a.data = .ok supply ∧
      supply + n < 2 ^ 64) ∧
    (answer.1 = .ok () → Created l key mint owner n answer.2) ∧
    (∀ e, answer.1 = .error e →
      ((∀ k, answer.2.accounts.get? k = l.accounts.get? k) ↔ ¬ (0 ≤ n ∧ n < 2 ^ 64)) ∧
      (0 ≤ n ∧ n < 2 ^ 64 → Stray l key mint owner n answer.2)) := by
  intro answer
  have hne : mint ≠ key := by
    rintro rfl
    rw [ha] at hfree
    cases hfree
  have hstored (data : Bytes) : (l.withToken key data).accounts.get? mint = some a := by
    rw [withToken_get?_of_ne hne, ha]
  have hends : Ends l key mint owner n answer := createTokenAccount_ends l key mint owner n
  generalize answer = answer at hends
  cases hends with
  | refused hout =>
    refine ⟨⟨nofun, ?_⟩, nofun,
      fun _ _ => ⟨⟨fun _ => hout, fun _ _ => rfl⟩, fun h => absurd h hout⟩⟩
    rintro ⟨hpos, supply, -, hlt⟩
    omega
  | @stranded data e hpos hlt hpack hadjust =>
    have hnew := withToken_holdsNew l key hmint howner hpack
    refine ⟨⟨nofun, ?_⟩, nofun, fun _ _ => ⟨⟨?_, fun hout => absurd ⟨hpos, hlt⟩ hout⟩, fun _ => ?_⟩⟩
    · rintro ⟨-, supply, hsupply, hsum⟩
      obtain ⟨_, -, hok⟩ := adjustSupply_stored (hstored data) hsupply hpos hsum
      rw [hadjust] at hok
      cases hok
    · intro hkept
      obtain ⟨_, hdata, -⟩ := hnew
      have hnone := (hkept key).trans hfree
      rw [hdata] at hnone
      cases hnone
    · exact ⟨hnew, fun other h => withToken_get?_of_ne h, rfl⟩
  | @created data t hpos hlt hpack hadjust =>
    refine ⟨⟨fun _ => ?_, fun _ => rfl⟩,
      fun _ => created_of_adjustSupply ha hne hmint howner hpos hpack hadjust, nofun⟩
    obtain ⟨supply, _, hsupply, hwritten, -⟩ := adjustSupply_int hadjust (hstored data)
    exact ⟨hpos, supply, hsupply, (Mint.withSupply_ok.1 hwritten).1.2⟩

end Creation

/-! A mint with a supply of 1000: it takes 100 more, and not all that a word can take. -/

namespace Sample

def largest : Int := 2 ^ 64 - 1

theorem mint_stored : ∃ a, (ledger 1000).accounts.get? (key 4) = some a ∧
    Mint.supply a.data = .ok 1000 :=
  ⟨held Config.tokenProgramAddress (Mint.pack 1000 6), by decide +kernel⟩

theorem unkept : (createTokenAccount (key 8) (key 4) (key 7) (.int largest) (ledger 1000)).1 =
      .error .fieldRange ∧ (ledger 1000).accounts.get? (key 8) = none := by
  decide +kernel

end Sample

theorem sample_created_and_stray :
    let create (n : Int) := createTokenAccount (Sample.key 8) (Sample.key 4) (Sample.key 7) (.int n)
      (Sample.ledger 1000)
    Created (Sample.ledger 1000) (Sample.key 8) (Sample.key 4) (Sample.key 7) 100 (create 100).2 ∧
      (create Sample.largest).1 = .error .fieldRange ∧
      Stray (Sample.ledger 1000) (Sample.key 8) (Sample.key 4) (Sample.key 7) Sample.largest
        (create Sample.largest).2 := by
  intro create
  obtain ⟨a, ha, hsupply⟩ := Sample.mint_stored
  obtain ⟨hfailed, hfree⟩ := Sample.unkept
  have hlargest : 0 ≤ Sample.largest ∧ Sample.largest < 2 ^ 64 := by decide
  have howner : (Sample.key 7).length = 32 := rfl
  have hsmall := createTokenAccount_kept_iff (n := 100) ha hfree rfl howner
  have hlarge := createTokenAccount_kept_iff (n := Sample.largest) ha hfree rfl howner
  exact ⟨hsmall.2.1 (hsmall.1.2 ⟨by decide, 1000, hsupply, by decide⟩), hfailed,
    (hlarge.2.2 _ hfailed).2 hlargest⟩

theorem creation_not_always_kept : ¬ ∀ (l : Ledger) (key mint owner : Bytes) (n : Int) (a : Account)
    (e : Fault), l.accounts.get? mint = some a → l.accounts.get? key = none → key ≠ mint →
      mint.length = 32 → owner.length = 32 →
      (createTokenAccount key mint owner (.int n) l).1 = .error e →
      ∀ k, (createTokenAccount key mint owner (.int n) l).2.accounts.get? k =
        l.accounts.get? k := by
  intro h
  obtain ⟨a, ha, -⟩ := Sample.mint_stored
  obtain ⟨hfailed, hfree⟩ := Sample.unkept
  have hkept := h _ _ _ (Sample.key 7) _ a _ ha hfree (by decide) rfl rfl hfailed (Sample.key 8)
  have hstored : ((createTokenAccount (Sample.key 8) (Sample.key 4) (Sample.key 7)
      (.int Sample.largest) (Sample.ledger 1000)).2.accounts.get? (Sample.key 8)).isSome := by
    decide +kernel
  rw [hkept, hfree] at hstored
  cases hstored

end Ledger
end Settlement
