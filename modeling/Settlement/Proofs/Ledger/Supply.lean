import Settlement.Ledger.Seed
import Settlement.Proofs.Ledger.Posting

/-! The supply of a mint, and what was burned of compressed balances, are the supply it started with
and what its token accounts hold. -/

namespace Settlement

open Outcome

namespace Ledger

/-! Seeding. -/

section Seed

variable {mint : Bytes} {created : List Bytes} {l t : Ledger} {key : Bytes}

theorem ofConfig_blank {c : Config} {monitored : Bool} (h : ofConfig c monitored = .ok l) :
    (∀ key a, l.accounts.get? key = some a → a.data = []) ∧ l.callLog = [] := by
  obtain ⟨programs, -, h⟩ := bind_eq_ok.1 h
  obtain ⟨program, -, h⟩ := bind_eq_ok.1 h
  cases h
  refine ⟨fun key a ha => ?_, rfl⟩
  simp only [List.foldl_cons, List.foldl_nil, Store.get?_set] at ha
  have hempty : (Store.empty : Store Account).get? key = none := rfl
  rw [hempty] at ha
  repeat' split at ha
  all_goals cases ha
  all_goals rfl

theorem writeRecord_ok {record : Record} (h : l.writeRecord key record [] = .ok t) :
    ∃ data, record.encode = .ok data ∧
      t = l.setAccount key { Account.empty with owner := l.program.address, data := data } := by
  obtain ⟨data, hdata, ht⟩ := bind_eq_ok.1 h
  exact ⟨data, hdata, (Except.ok.inj ht).symm⟩

/-- A mint and the record that names it are all that a blank ledger needs. -/
theorem laid_of_blank {program mint recordKey : Bytes} {mintAccount recordAccount : Account}
    {record : Record} (hblank : ∀ key a, l.accounts.get? key = some a → a.data = [])
    (hmint : mintAccount.data.length = Mint.size) (howner : recordAccount.owner ≠ program)
    (hrecord : Record.decode recordAccount.data = .ok record) (hnamed : record.mint = mint)
    (hkey : mint ≠ recordKey) :
    Laid program mint [] ((l.setAccount mint mintAccount).setAccount recordKey recordAccount) := by
  have hget (key : Bytes) (a : Account)
      (ha : ((l.setAccount mint mintAccount).setAccount recordKey recordAccount).accounts.get? key =
        some a) : a = recordAccount ∨ a = mintAccount ∨ a.data = [] := by
    simp only [setAccount, Store.get?_set] at ha
    split at ha
    · exact .inl (Option.some.inj ha).symm
    · split at ha
      · exact .inr (.inl (Option.some.inj ha).symm)
      · exact .inr (.inr (hblank key a ha))
  constructor
  · intro key a r ha hr
    rcases hget key a ha with rfl | rfl | hnil
    · rw [hrecord] at hr
      cases hr
      exact hnamed
    · have hlength := record_length hr
      rw [hmint] at hlength
      cases hlength
    · have hlength := record_length hr
      rw [hnil] at hlength
      cases hlength
  · intro key a ha howned hsize
    rcases hget key a ha with rfl | rfl | hnil
    · exact absurd howned howner
    · rw [hmint] at hsize
      exact absurd hsize (by decide)
    · rw [hnil] at hsize
      exact absurd hsize (by decide)
  · intro key hkey
    cases hkey
  · refine ⟨mintAccount, ?_, hmint⟩
    simp only [setAccount, Store.get?_set, hkey, if_false, if_true]
  · exact List.nodup_nil

/-- Genesis stores the mint with its supply and the record that names it. -/
theorem genesis_laid {treasury transferAuthority secondaryAuthority : Bytes}
    {initialized paused : Bool} {supply : Int} {g : Genesis}
    (hblank : ∀ key a, l.accounts.get? key = some a → a.data = [])
    (hprograms : l.programs.settlement ≠ l.programs.token) (hlength : mint.length = 32)
    (h : (l.genesis treasury transferAuthority secondaryAuthority mint initialized paused
      (.int supply)).outcome = .ok g) (hrecordKey : mint ≠ g.recordKey) :
    let t := (l.genesis treasury transferAuthority secondaryAuthority mint initialized paused
      (.int supply)).ledger
    Laid l.programs.token mint [] t ∧ t.supplyCount mint = supply ∧ t.callLog = l.callLog ∧
      t.program = l.program := by
  cases hfind : derived (Identity.configRecord.find l.program.address) with
  | error e =>
    simp only [genesis, hfind] at h
    cases h
  | ok found =>
    obtain ⟨recordKey, bump⟩ := found
    cases hpack : (Json.Value.int supply).fieldInt.bind (Mint.pack · decimals) with
    | error e =>
      simp only [genesis, hfind, hpack] at h
      cases h
    | ok data =>
      have hdata : Mint.pack supply decimals = .ok data := hpack
      obtain ⟨hsize, hsupply, hpos⟩ := Mint.pack_ok hdata
      simp only [genesis, hfind, hpack] at h ⊢
      split at h
      · cases h
      · next t ht =>
        obtain ⟨encoded, hencoded, rfl⟩ := writeRecord_ok ht
        cases h
        obtain ⟨-, hdecode⟩ := Record.decode_encode hencoded
        refine ⟨laid_of_blank hblank hsize hprograms hdecode ?_ hrecordKey, ?_, rfl, rfl⟩
        · exact Bytes.fit_of_length hlength
        · have hstored : (l.setAccount mint { Account.empty with
              owner := l.programs.token, data := data }).accounts.get? mint =
                some { Account.empty with owner := l.programs.token, data := data } :=
            Store.get?_set_self _ _ _
          rw [supplyCount_setAccount_of_ne hrecordKey, (supplyCount_of_stored hstored hsupply).2]
          exact Int.toNat_of_nonneg hpos

theorem createTokenAccount_ok {owner : Bytes} {n : Int}
    (h : createTokenAccount key mint owner (.int n) l = (.ok (), t)) :
    ∃ data, TokenAccount.pack mint owner n = .ok data ∧
      (l.setAccount key { Account.empty with owner := l.programs.token, data := data }).adjustSupply
        mint (.int n) = .ok t := by
  rw [createTokenAccount] at h
  cases hstore : storeTokenAccount key mint owner (.int n) l with
  | error e =>
    simp only [inOrder, hstore] at h
    cases h
  | ok s =>
    cases hadjust : s.adjustSupply mint (.int n) with
    | error e =>
      simp only [inOrder, hstore, hadjust] at h
      cases h
    | ok u =>
      simp only [inOrder, hstore, hadjust] at h
      cases h
      obtain ⟨m, hm, hpack⟩ := bind_eq_ok.1 hstore
      cases hm
      obtain ⟨data, hdata, hs⟩ := bind_eq_ok.1 hpack
      cases hs
      exact ⟨data, hdata, hadjust⟩

/-- A new token account at a key that is free. -/
theorem Laid.store {program : Bytes} {a : Account} (h : Laid program mint created l)
    (hfree : l.accounts.get? key = none) (hsize : a.data.length = TokenAccount.size) :
    Laid program mint (key :: created) (l.setAccount key a) := by
  have hkept {other : Bytes} {b : Account} (hb : l.accounts.get? other = some b) :
      (l.setAccount key a).accounts.get? other = some b := by
    have hother : other ≠ key := by
      rintro rfl
      rw [hfree] at hb
      cases hb
    rw [setAccount, Store.get?_set_of_ne hother, hb]
  constructor
  · intro other b r hb hr
    rw [setAccount, Store.get?_set] at hb
    split at hb
    · cases hb
      have hlength := record_length hr
      rw [hsize] at hlength
      cases hlength
    · exact h.record other b r hb hr
  · intro other b hb howner hlarge
    rw [setAccount, Store.get?_set] at hb
    split at hb
    · next hother =>
      rw [hother]
      exact List.mem_cons_self
    · exact List.mem_cons_of_mem _ (h.token other b hb howner hlarge)
  · intro other hother
    rcases List.mem_cons.1 hother with rfl | hother
    · exact ⟨a, Store.get?_set_self _ _ _, hsize⟩
    · obtain ⟨b, hb, hlength⟩ := h.held other hother
      exact ⟨b, hkept hb, hlength⟩
  · obtain ⟨b, hb, hlength⟩ := h.mint
    exact ⟨b, hkept hb, hlength⟩
  · refine List.nodup_cons.2 ⟨fun hmem => ?_, h.nodup⟩
    obtain ⟨b, hb, -⟩ := h.held key hmem
    rw [hfree] at hb
    cases hb

theorem createTokenAccount_posted {program owner : Bytes} {n : Int}
    (h : createTokenAccount key mint owner (.int n) l = (.ok (), t))
    (hl : Laid program mint created l) (hfree : l.accounts.get? key = none) :
    Laid program mint (key :: created) t ∧
      t.supplyCount mint - t.tokenTotal (key :: created) =
        l.supplyCount mint - l.tokenTotal created ∧
      t.callLog = l.callLog ∧ t.program = l.program := by
  obtain ⟨data, hdata, hadjust⟩ := createTokenAccount_ok h
  obtain ⟨hsize, hdecode, hpos⟩ := TokenAccount.pack_ok hdata
  generalize hs : l.setAccount key { Account.empty with
    owner := l.programs.token, data := data } = s at hadjust
  have hlaid : Laid program mint (key :: created) s := by
    rw [← hs]
    exact hl.store hfree hsize
  have hnew : key ∉ created := (List.nodup_cons.1 hlaid.nodup).1
  have hmint : mint ≠ key := by
    rintro rfl
    obtain ⟨a, ha, -⟩ := hl.mint
    rw [hfree] at ha
    cases ha
  have hcount : s.tokenCount key = n := by
    have hstored : s.accounts.get? key = some { Account.empty with
        owner := l.programs.token, data := data } := by
      rw [← hs]
      exact Store.get?_set_self _ _ _
    rw [(tokenCount_of_stored hstored hdecode).2]
    exact Int.toNat_of_nonneg hpos
  have htotal : s.tokenTotal (key :: created) = n + l.tokenTotal created := by
    have hrest : s.tokenTotal created = l.tokenTotal created := by
      rw [← hs]
      exact tokenTotal_setAccount_of_not_mem hnew _
    rw [← hrest, ← hcount]
    rfl
  have hsupply : s.supplyCount mint = l.supplyCount mint := by
    rw [← hs]
    exact supplyCount_setAccount_of_ne hmint _
  obtain ⟨ht, hadjusted, hsame, hlog⟩ := hlaid.adjustSupply hadjust
  refine ⟨ht, by omega, ?_, ?_⟩
  · rw [hlog, ← hs]
    rfl
  · obtain ⟨a, ha, -⟩ := hlaid.mint
    obtain ⟨_, _, _, _, rfl⟩ := adjustSupply_int hadjust ha
    rw [← hs]
    rfl

end Seed

/-- The ledgers that a genesis with a supply leads to, step by step, each with the token accounts
created so far. Every step ends well or with a signal. -/
inductive Reached (mint : Bytes) (supply : Int) : List Bytes → Ledger → Prop
  | genesis {c : Config} {monitored initialized paused : Bool} {l : Ledger} {g : Genesis}
      {treasury transferAuthority secondaryAuthority : Bytes} :
      ofConfig c monitored = .ok l → l.programs.settlement ≠ l.programs.token → mint.length = 32 →
      (l.genesis treasury transferAuthority secondaryAuthority mint initialized paused
        (.int supply)).outcome = .ok g → mint ≠ g.recordKey →
      Reached mint supply [] (l.genesis treasury transferAuthority secondaryAuthority mint
        initialized paused (.int supply)).ledger
  | created {created : List Bytes} {l : Ledger} {key owner : Bytes} {amount : Int} :
      Reached mint supply created l → l.accounts.get? key = none →
      (createTokenAccount key mint owner (.int amount) l).1 = .ok () →
      Reached mint supply (key :: created) (createTokenAccount key mint owner (.int amount) l).2
  | credited {created : List Bytes} {l : Ledger} (owner : Bytes) (amount : Json.Value) :
      Reached mint supply created l → Reached mint supply created (l.setCompressed owner amount)
  | failing {created : List Bytes} {l t : Ledger} {index detail : Json.Value} :
      Reached mint supply created l → l.failCall index detail = .ok t →
      Reached mint supply created t
  | committed {created : List Bytes} {l : Ledger} {accounts : List AccountView} {data : Bytes}
      {receipt : Receipt} :
      Reached mint supply created l → l.Viewed accounts →
      (l.execute accounts data).outcome = .ok receipt →
      Reached mint supply created (l.execute accounts data).ledger
  | aborted {created : List Bytes} {l : Ledger} {accounts : List AccountView} {data : Bytes}
      {signal : Signal} :
      Reached mint supply created l → l.Viewed accounts →
      (l.execute accounts data).outcome = .error (.signal signal) →
      Reached mint supply created (l.execute accounts data).ledger

structure Accounted (mint : Bytes) (supply : Int) (created : List Bytes) (l : Ledger) : Prop where
  laid : Laid l.programs.token mint created l
  even : l.supplyCount mint + burnedBy l.callLog = supply + l.tokenTotal created

theorem Accounted.of_same {mint : Bytes} {supply : Int} {created : List Bytes} {l t : Ledger}
    (h : Accounted mint supply created l) (haccounts : t.accounts = l.accounts)
    (hlog : t.callLog = l.callLog) (hprogram : t.program = l.program) :
    Accounted mint supply created t where
  laid := by
    rw [programs, hprogram]
    exact h.laid.of_accounts haccounts
  even := by
    rw [supplyCount_of_accounts haccounts, tokenTotal_of_accounts haccounts, hlog]
    exact h.even

theorem Reached.accounted {mint : Bytes} {supply : Int} {created : List Bytes} {l : Ledger}
    (h : Reached mint supply created l) : Accounted mint supply created l := by
  induction h with
  | genesis hconfig hprograms hlength hgenesis hrecordKey =>
    obtain ⟨hblank, hlog⟩ := ofConfig_blank hconfig
    obtain ⟨hlaid, hsupply, hsame, hprogram⟩ :=
      genesis_laid hblank hprograms hlength hgenesis hrecordKey
    refine ⟨?_, ?_⟩
    · rw [programs, hprogram]
      exact hlaid
    · have htotal (t : Ledger) : t.tokenTotal [] = 0 := rfl
      rw [hsupply, hsame, hlog, htotal, burnedBy_nil]
  | @created created l key owner amount _ hfree hcreate ih =>
    have hpair : createTokenAccount key mint owner (.int amount) l =
        (.ok (), (createTokenAccount key mint owner (.int amount) l).2) := Prod.ext hcreate rfl
    obtain ⟨hlaid, hsums, hlog, hprogram⟩ := createTokenAccount_posted hpair ih.laid hfree
    refine ⟨?_, ?_⟩
    · rw [programs, hprogram]
      exact hlaid
    · have hbefore := ih.even
      rw [hlog]
      omega
  | credited owner amount _ ih => exact ih.of_same rfl rfl rfl
  | failing _ hfail ih =>
    simp only [failCall] at hfail
    split at hfail
    · cases hfail
      exact ih.of_same rfl rfl rfl
    · cases hfail
  | @committed created l accounts data receipt _ hviews hreceipt ih =>
    have hposted := execute_posted hreceipt ih.laid hviews
    refine ⟨?_, ?_⟩
    · rw [programs, execute_program hreceipt]
      exact hposted.laid
    · have hbefore := ih.even
      have hsums := hposted.even
      rw [execute_callLog hreceipt, burnedBy_append]
      omega
  | aborted _ _ hsignal ih =>
    have hrestored := execute_signal hsignal
    exact ih.of_same hrestored.accounts hrestored.callLog hrestored.program

/-- The supply of the mint and what was burned of compressed balances are the first supply and what
the token accounts hold. -/
theorem Reached.supply_reconciles {mint : Bytes} {supply : Int} {created : List Bytes} {l : Ledger}
    (h : Reached mint supply created l) :
    ∃ (current : Nat) (balances : List Nat), l.mintSupply mint = .ok current ∧
      created.mapM l.tokenBalance = .ok balances ∧
      (current : Int) + burnedBy l.callLog = supply + (balances.sum : Nat) := by
  have haccounted := h.accounted
  obtain ⟨current, hcurrent, hcount⟩ := haccounted.laid.supply
  obtain ⟨balances, hbalances, hsum⟩ := haccounted.laid.balances
  have heven := haccounted.even
  exact ⟨current, balances, hcurrent, hbalances, by omega⟩

/-! A run: genesis with 1000, a token account of 100, and a burn of 40 of the organization's 100. -/

namespace Sample

def fresh : Ledger := (ofConfig .standard false).toOption.getD (ledger 0)

def born : Ledger :=
  (fresh.genesis (key 1) (key 2) (key 3) (key 4) true false (.int 1000)).ledger

def issued : Ledger := (createTokenAccount (key 6) (key 4) (key 7) (.int 100) born).2

def credited : Ledger := issued.setCompressed organizationKey (.int 100)

def burnViews : List AccountView :=
  let l := credited
  [l.view (key 2) true false, l.view recordKey false false, l.view (key 4) false true,
    l.view organizationKey false false, l.view (key 5) true true, l.view systemAddress false false,
    l.view Config.compressedTokenProgramAddress false false]

theorem fresh_created : ofConfig .standard false = .ok fresh := rfl

theorem issued_created :
    born.accounts.get? (key 6) = none ∧
      (createTokenAccount (key 6) (key 4) (key 7) (.int 100) born).1 = .ok () := by
  decide +kernel

theorem credited_reached : Reached (key 4) 1000 [key 6] credited := by
  have hgenesis : (fresh.genesis (key 1) (key 2) (key 3) (key 4) true false
      (.int 1000)).outcome.map (·.recordKey) = .ok recordKey := by
    decide +kernel
  have hborn : Reached (key 4) 1000 [] born := by
    cases hg : (fresh.genesis (key 1) (key 2) (key 3) (key 4) true false (.int 1000)).outcome with
    | error e =>
      rw [hg] at hgenesis
      cases hgenesis
    | ok g =>
      rw [hg] at hgenesis
      have hsame : g.recordKey = recordKey := Except.ok.inj hgenesis
      have hkey : key 4 ≠ g.recordKey := by
        rw [hsame]
        decide
      exact .genesis fresh_created (by decide +kernel) rfl hg hkey
  obtain ⟨hfree, hok⟩ := issued_created
  have hissued : Reached (key 4) 1000 [key 6] issued := .created hborn hfree hok
  exact .credited organizationKey (.int 100) hissued

theorem burnViews_viewed : credited.Viewed burnViews := by
  intro v hv
  simp only [burnViews, List.mem_cons, List.not_mem_nil, or_false] at hv
  rcases hv with rfl | rfl | rfl | rfl | rfl | rfl | rfl <;> exact ⟨_, _, rfl⟩

end Sample

theorem sample_supply_reconciles :
    let t := (Sample.credited.execute Sample.burnViews Sample.organizationBurn).ledger
    Reached (Sample.key 4) 1000 [Sample.key 6] t ∧
      ∃ (current : Nat) (balances : List Nat), t.mintSupply (Sample.key 4) = .ok current ∧
        [Sample.key 6].mapM t.tokenBalance = .ok balances ∧
        (current : Int) + burnedBy t.callLog = 1000 + (balances.sum : Nat) := by
  intro t
  have hsome : (Sample.credited.execute Sample.burnViews
      Sample.organizationBurn).outcome.toOption.isSome = true := by
    decide +kernel
  have hreceipt := eq_ok_of_isSome hsome ⟨.organizationBurn, [], 0, none⟩
  have hreached : Reached (Sample.key 4) 1000 [Sample.key 6] t :=
    .committed Sample.credited_reached Sample.burnViews_viewed hreceipt
  exact ⟨hreached, hreached.supply_reconciles⟩

end Ledger
end Settlement
