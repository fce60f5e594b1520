import Settlement.Proofs.Account.Record
import Settlement.Proofs.Account.Token
import Settlement.Proofs.Ledger.Authority

/-! What is stored in a ledger with one mint: the mint itself, records that name it, and token
accounts of a known list. Writing an amount or a supply leaves all that where it is, and changes
one number. -/

namespace Settlement.Ledger

open Outcome

/-- A record names the mint, and what the token program owns and has the size of a token account is
one of those that were created. -/
structure Laid (program mint : Bytes) (created : List Bytes) (l : Ledger) : Prop where
  record : ∀ key a r, l.accounts.get? key = some a → Record.decode a.data = .ok r → r.mint = mint
  token : ∀ key a, l.accounts.get? key = some a → a.owner = program →
    TokenAccount.size ≤ a.data.length → key ∈ created
  held : ∀ key ∈ created, ∃ a, l.accounts.get? key = some a ∧ a.data.length = TokenAccount.size
  mint : ∃ a, l.accounts.get? mint = some a ∧ a.data.length = Mint.size
  nodup : created.Nodup

/-- The supply of a mint, and the amount of a token account. What cannot be read counts as none. -/
def supplyCount (l : Ledger) (mint : Bytes) : Int := ((l.mintSupply mint).toOption.getD 0 : Nat)

def tokenCount (l : Ledger) (key : Bytes) : Int := ((l.tokenBalance key).toOption.getD 0 : Nat)

def tokenTotal (l : Ledger) (created : List Bytes) : Int := (created.map l.tokenCount).sum

theorem record_length {data : Bytes} {r : Record} (h : Record.decode data = .ok r) :
    data.length = Record.size := by
  simp only [Record.decode, ne_eq] at h
  split at h
  · cases h
  · next hsize => exact Classical.not_not.1 hsize

section Layout

variable {program mint : Bytes} {created : List Bytes} {l t : Ledger} {key : Bytes} {a : Account}
  {data : Bytes}

theorem account_ok (h : l.accounts.get? key = some a) : l.account key = .ok a := by
  rw [account, h]

theorem supplyCount_of_stored {supply : Nat} (ha : l.accounts.get? mint = some a)
    (hsupply : Mint.supply a.data = .ok supply) :
    l.mintSupply mint = .ok supply ∧ l.supplyCount mint = supply := by
  have hread : l.mintSupply mint = .ok supply := by
    simp only [mintSupply, account_ok ha, ok_bind, hsupply]
  refine ⟨hread, ?_⟩
  rw [supplyCount, hread]
  rfl

theorem tokenCount_of_stored {token : TokenAccount} (ha : l.accounts.get? key = some a)
    (htoken : TokenAccount.decode a.data = .ok token) :
    l.tokenBalance key = .ok token.amount ∧ l.tokenCount key = token.amount := by
  have hread : l.tokenBalance key = .ok token.amount := by
    simp only [tokenBalance, account_ok ha, ok_bind, htoken]
    rfl
  refine ⟨hread, ?_⟩
  rw [tokenCount, hread]
  rfl

theorem Laid.of_accounts (h : Laid program mint created l) (haccounts : t.accounts = l.accounts) :
    Laid program mint created t where
  record := by
    rw [haccounts]
    exact h.record
  token := by
    rw [haccounts]
    exact h.token
  held := by
    rw [haccounts]
    exact h.held
  mint := by
    rw [haccounts]
    exact h.mint
  nodup := h.nodup

theorem supplyCount_of_accounts (h : t.accounts = l.accounts) (mint : Bytes) :
    t.supplyCount mint = l.supplyCount mint := by
  simp only [supplyCount, mintSupply, account, h]

theorem tokenTotal_of_accounts (h : t.accounts = l.accounts) (created : List Bytes) :
    t.tokenTotal created = l.tokenTotal created := by
  have hcount : ∀ key ∈ created, t.tokenCount key = l.tokenCount key := by
    intro key _
    simp only [tokenCount, tokenBalance, account, h]
  rw [tokenTotal, tokenTotal, List.map_congr_left hcount]

theorem Laid.mint_not_created (h : Laid program mint created l) : mint ∉ created := by
  intro hmem
  obtain ⟨a, ha, hlength⟩ := h.held mint hmem
  obtain ⟨b, hb, hlength'⟩ := h.mint
  rw [ha] at hb
  cases hb
  rw [hlength] at hlength'
  cases hlength'

theorem Laid.supply (h : Laid program mint created l) :
    ∃ supply : Nat, l.mintSupply mint = .ok supply ∧ l.supplyCount mint = supply := by
  obtain ⟨a, ha, hlength⟩ := h.mint
  have hlong : ¬ a.data.length < Mint.supplyOffset + 8 := by
    rw [hlength]
    decide
  have hsupply : Mint.supply a.data = .ok (Bytes.value (a.data.slice Mint.supplyOffset 8)) := by
    rw [Mint.supply, if_neg hlong]
  exact ⟨_, supplyCount_of_stored ha hsupply⟩

theorem Laid.balance (h : Laid program mint created l) (hkey : key ∈ created) :
    ∃ balance : Nat, l.tokenBalance key = .ok balance ∧ l.tokenCount key = balance := by
  obtain ⟨a, ha, hlength⟩ := h.held key hkey
  obtain ⟨token, htoken⟩ := TokenAccount.decode_of_size (Nat.le_of_eq hlength.symm)
  exact ⟨_, tokenCount_of_stored ha htoken⟩

theorem Laid.balances (h : Laid program mint created l) :
    ∃ balances : List Nat, created.mapM l.tokenBalance = .ok balances ∧
      (balances.sum : Int) = l.tokenTotal created := by
  suffices hall : ∀ keys : List Bytes, (∀ key ∈ keys, key ∈ created) →
      ∃ balances : List Nat, keys.mapM l.tokenBalance = .ok balances ∧
        (balances.sum : Int) = l.tokenTotal keys from hall created fun _ hkey => hkey
  intro keys hkeys
  induction keys with
  | nil => exact ⟨[], List.mapM_nil, rfl⟩
  | cons key rest ih =>
    obtain ⟨balance, hbalance, hcount⟩ := h.balance (hkeys key List.mem_cons_self)
    obtain ⟨balances, hbalances, hsum⟩ := ih fun k hk => hkeys k (List.mem_cons_of_mem _ hk)
    refine ⟨balance :: balances, ?_, ?_⟩
    · simp only [List.mapM_cons, hbalance, hbalances, ok_bind]
      rfl
    · have htotal : l.tokenTotal (key :: rest) = l.tokenCount key + l.tokenTotal rest := rfl
      rw [List.sum_cons, htotal]
      omega

/-- New data of the same length, in an account that is no record. -/
theorem Laid.rewrite (h : Laid program mint created l) (ha : l.accounts.get? key = some a)
    (hlength : data.length = a.data.length) (hrecord : a.data.length ≠ Record.size) :
    Laid program mint created (l.setAccount key { a with data := data }) := by
  have hget (other : Bytes) (b : Account)
      (hb : (l.setAccount key { a with data := data }).accounts.get? other = some b) :
      ∃ b', l.accounts.get? other = some b' ∧ b.owner = b'.owner ∧
        b.data.length = b'.data.length ∧ (b = b' ∨ b.data.length ≠ Record.size) := by
    rw [setAccount, Store.get?_set] at hb
    by_cases hother : other = key
    · rw [if_pos hother] at hb
      cases hb
      rw [hother]
      exact ⟨a, ha, rfl, hlength, .inr (by rw [hlength]; exact hrecord)⟩
    · rw [if_neg hother] at hb
      exact ⟨b, hb, rfl, rfl, .inl rfl⟩
  have hset (other : Bytes) (b : Account) (hb : l.accounts.get? other = some b) :
      ∃ b', (l.setAccount key { a with data := data }).accounts.get? other = some b' ∧
        b'.data.length = b.data.length := by
    rw [setAccount, Store.get?_set]
    by_cases hother : other = key
    · rw [hother, ha] at hb
      cases hb
      exact ⟨_, if_pos hother, hlength⟩
    · exact ⟨b, by rw [if_neg hother, hb], rfl⟩
  constructor
  · intro other b r hb hr
    obtain ⟨b', hb', -, -, hsame | hother⟩ := hget other b hb
    · rw [hsame] at hr
      exact h.record other b' r hb' hr
    · exact absurd (record_length hr) hother
  · intro other b hb howner hsize
    obtain ⟨b', hb', howner', hlength', -⟩ := hget other b hb
    exact h.token other b' hb' (howner'.symm.trans howner) (by omega)
  · intro other hother
    obtain ⟨b, hb, hsize⟩ := h.held other hother
    obtain ⟨b', hb', hlength'⟩ := hset other b hb
    exact ⟨b', hb', hlength'.trans hsize⟩
  · obtain ⟨b, hb, hsize⟩ := h.mint
    obtain ⟨b', hb', hlength'⟩ := hset mint b hb
    exact ⟨b', hb', hlength'.trans hsize⟩
  · exact h.nodup

theorem tokenCount_setAccount_of_ne {other : Bytes} (h : other ≠ key) (b : Account) :
    (l.setAccount key b).tokenCount other = l.tokenCount other := by
  simp only [tokenCount, tokenBalance, account, setAccount, Store.get?_set_of_ne h]

theorem tokenTotal_setAccount_of_not_mem (h : key ∉ created) (b : Account) :
    (l.setAccount key b).tokenTotal created = l.tokenTotal created := by
  have hcount : ∀ other ∈ created, (l.setAccount key b).tokenCount other = l.tokenCount other := by
    intro other hother
    refine tokenCount_setAccount_of_ne ?_ b
    rintro rfl
    exact h hother
  rw [tokenTotal, tokenTotal, List.map_congr_left hcount]

theorem tokenTotal_setAccount (hnodup : created.Nodup) (hkey : key ∈ created) (b : Account) :
    (l.setAccount key b).tokenTotal created =
      l.tokenTotal created + ((l.setAccount key b).tokenCount key - l.tokenCount key) := by
  induction created with
  | nil => cases hkey
  | cons first rest ih =>
    obtain ⟨hfirst, hrest⟩ := List.nodup_cons.1 hnodup
    simp only [tokenTotal, List.map_cons, List.sum_cons] at ih ⊢
    by_cases hsame : key = first
    · subst hsame
      have htail := tokenTotal_setAccount_of_not_mem (l := l) hfirst b
      simp only [tokenTotal] at htail
      omega
    · have hmem : key ∈ rest := (List.mem_cons.1 hkey).resolve_left hsame
      have hhead := tokenCount_setAccount_of_ne (l := l) (Ne.symm hsame) b
      have htail := ih hrest hmem
      omega

theorem supplyCount_setAccount_of_ne (h : mint ≠ key) (b : Account) :
    (l.setAccount key b).supplyCount mint = l.supplyCount mint := by
  simp only [supplyCount, mintSupply, account, setAccount, Store.get?_set_of_ne h]

end Layout

/-! The changes of burns and of new accounts. -/

section Changes

variable {program mint : Bytes} {created : List Bytes} {l t : Ledger}

theorem adjustSupply_int {n : Int} (h : l.adjustSupply mint (.int n) = .ok t) {a : Account}
    (ha : l.accounts.get? mint = some a) :
    ∃ supply data, Mint.supply a.data = .ok supply ∧
      Mint.withSupply a.data (supply + n) = .ok data ∧
      t = l.setAccount mint { a with data := data } := by
  simp only [adjustSupply, ha, bind_eq_ok] at h
  obtain ⟨supply, hsupply, sum, hsum, m, hm, data, hdata, ht⟩ := h
  rw [Json.Value.add_int] at hsum
  cases hsum
  cases hm
  exact ⟨supply, data, hsupply, hdata, (Except.ok.inj ht).symm⟩

theorem Laid.adjustSupply (h : Laid program mint created l) {n : Int}
    (hadjust : l.adjustSupply mint (.int n) = .ok t) :
    Laid program mint created t ∧ t.supplyCount mint = l.supplyCount mint + n ∧
      t.tokenTotal created = l.tokenTotal created ∧ t.callLog = l.callLog := by
  obtain ⟨a, ha, hlength⟩ := h.mint
  obtain ⟨supply, data, hsupply, hdata, rfl⟩ := adjustSupply_int hadjust ha
  obtain ⟨hsame, hwritten⟩ := Mint.supply_withSupply hdata
  obtain ⟨⟨hpos, -⟩, -⟩ := Mint.withSupply_ok.1 hdata
  have hrecord : a.data.length ≠ Record.size := by
    rw [hlength]
    decide
  have hbefore : l.supplyCount mint = supply := (supplyCount_of_stored ha hsupply).2
  have hstored : (l.setAccount mint { a with data := data }).accounts.get? mint =
      some { a with data := data } := Store.get?_set_self _ _ _
  have hafter : (l.setAccount mint { a with data := data }).supplyCount mint = supply + n := by
    rw [(supplyCount_of_stored hstored hwritten).2]
    exact Int.toNat_of_nonneg hpos
  refine ⟨h.rewrite ha hsame hrecord, ?_, ?_, rfl⟩
  · rw [hafter, hbefore]
  · exact tokenTotal_setAccount_of_not_mem h.mint_not_created _

theorem Laid.debitToken (h : Laid program mint created l) {c : Call} {n : Int}
    (hn : c.amount = .int n) {key owner : Bytes} (hkey : key ∈ created)
    (hdebit : debitToken c key mint owner l = .ok t) :
    Laid program mint created t ∧ t.supplyCount mint = l.supplyCount mint ∧
      t.tokenTotal created = l.tokenTotal created - n ∧ t.callLog = l.callLog := by
  obtain ⟨a, token, data, ha, htoken, -, -, hcovered, hdata, rfl⟩ := debitToken_ok hn hdebit
  obtain ⟨hsame, hwritten⟩ := TokenAccount.decode_withAmount htoken hdata
  obtain ⟨b, hb, hlength⟩ := h.held key hkey
  rw [ha] at hb
  cases hb
  have hrecord : a.data.length ≠ Record.size := by
    rw [hlength]
    decide
  have hbefore : l.tokenCount key = token.amount := (tokenCount_of_stored ha htoken).2
  have hstored : (l.setAccount key { a with data := data }).accounts.get? key =
      some { a with data := data } := Store.get?_set_self _ _ _
  have hafter : (l.setAccount key { a with data := data }).tokenCount key = token.amount - n := by
    rw [(tokenCount_of_stored hstored hwritten).2]
    exact Int.toNat_of_nonneg (by omega)
  have hmint : mint ≠ key := by
    rintro rfl
    exact h.mint_not_created hkey
  refine ⟨h.rewrite ha hsame hrecord, supplyCount_setAccount_of_ne hmint _, ?_, rfl⟩
  rw [tokenTotal_setAccount h.nodup hkey, hafter, hbefore]
  omega

end Changes

end Settlement.Ledger
