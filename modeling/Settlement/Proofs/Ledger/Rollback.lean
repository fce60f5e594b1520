import Settlement.Proofs.Ledger.Transaction

/-! What a failed transaction leaves behind. A signal takes everything back. Any other fault of a
ledger with whole balances leaves a trace in one case only: a burn has taken its amount out of the
balance or out of the token account, and then the supply of the mint cannot take it. -/

namespace Settlement.Ledger

open Outcome

structure Kept (l t : Ledger) : Prop where
  accounts : ∀ key, t.accounts.get? key = l.accounts.get? key
  compressed : ∀ key, t.compressed.get? key = l.compressed.get? key
  callLog : t.callLog = l.callLog

theorem Kept.of_eq {l t : Ledger} (haccounts : t.accounts = l.accounts)
    (hcompressed : t.compressed = l.compressed) (hlog : t.callLog = l.callLog) : Kept l t :=
  ⟨fun _ => by rw [haccounts], fun _ => by rw [hcompressed], hlog⟩

def WholeBalances (l : Ledger) : Prop := ∀ key, ∃ n, (l.compressedBalance key).integer? = some n

theorem WholeBalances.setCompressed {l : Ledger} (h : l.WholeBalances) (owner : Bytes) (n : Int) :
    (l.setCompressed owner (.int n)).WholeBalances := by
  intro key
  rw [compressedBalance_setCompressed]
  by_cases hk : key = owner
  · exact ⟨n, by simp only [hk, if_true, Json.Value.integer?_int]⟩
  · simpa only [hk, if_false] using h key

/-- A burn whose amount has been taken when the mint turns out to hold too little supply, or data
too short for any. -/
inductive Stranded (l : Ledger) (accounts : List AccountView) (data : Bytes) : Fault → Prop
  | supply {saved : Snapshot} {call : Call} {mint : Bytes} {debit : Ledger → Outcome Ledger}
      {taken : Ledger} {stored : Account} {n : Int} {e : Fault}
      (snapshot : l.snapshot = .ok saved)
      (plan : planned l.program.rules accounts data = [call])
      (amount : call.amount = .int n)
      (effects : changes call = .ok [debit, reduceSupply call mint])
      (debited : debit (l.opened accounts).counted = .ok taken)
      (found : taken.accounts.get? mint = some stored)
      (short : Mint.supply stored.data = .error .fieldBounds ∧ e = .fieldBounds ∨
        ∃ supply, Mint.supply stored.data = .ok supply ∧ supply < n ∧ e = .fieldRange) :
      Stranded l accounts data e

/-! A transfer of a whole amount between whole balances ends well or in a signal. -/

def Transfers (c : Call) : Prop :=
  ∃ n source destination, c.amount = .int n ∧
    changes c = .ok [debitCompressed c source, creditCompressed c destination]

section Transfer

variable {caller : Bytes} {c : Call} {source destination : Bytes} {n : Int} {l t : Ledger}

theorem transfer_inOrder (hn : c.amount = .int n) (hl : l.WholeBalances)
    (source destination : Bytes) :
    (∃ s t, inOrder [debitCompressed c source, creditCompressed c destination] l =
      (.error (.signal s), t)) ∨
    ∃ t, inOrder [debitCompressed c source, creditCompressed c destination] l = (.ok (), t) ∧
      t.WholeBalances := by
  obtain ⟨b, hb⟩ := hl source
  cases hdebit : debitCompressed c source l with
  | error e =>
    have he := debitCompressed_error hn hb hdebit
    have hrun : inOrder [debitCompressed c source, creditCompressed c destination] l =
        (.error (rejection c "insufficient compressed balance"), l) := by
      simp only [inOrder, hdebit, he]
    exact .inl ⟨_, l, hrun⟩
  | ok next =>
    obtain ⟨-, rest, hrest, rfl⟩ := debitCompressed_ok.1 hdebit
    rw [hn, Json.Value.sub_of_integer? hb] at hrest
    cases hrest
    have hnext := hl.setCompressed source (b - n)
    obtain ⟨b', hb'⟩ := hnext destination
    refine .inr ⟨_, ?_, hnext.setCompressed destination (b' + n)⟩
    simp only [inOrder, hdebit, creditCompressed_int hn hb']

variable (hn : c.amount = .int n) (hl : l.WholeBalances)
  (hc : changes c = .ok [debitCompressed c source, creditCompressed c destination])

include hn hl hc

theorem transfer_error {e : Fault} (h : Invoked caller c l (.error e, t)) : ∃ s, e = .signal s := by
  cases h with
  | @refused s _ => exact ⟨s, rfl⟩
  | malformed hbad =>
    rw [hc] at hbad
    cases hbad
  | failed hcs hrun =>
    rw [hc] at hcs
    cases hcs
    rcases transfer_inOrder (l := l.counted) hn hl source destination with
      ⟨s, t', h⟩ | ⟨t', h, -⟩
    · rw [h] at hrun
      cases hrun
      exact ⟨s, rfl⟩
    · rw [h] at hrun
      cases hrun

theorem transfer_whole (h : Invoked caller c l (.ok (), t)) : t.WholeBalances := by
  cases h with
  | applied _ hcs hrun =>
    rw [hc] at hcs
    cases hcs
    rcases transfer_inOrder (l := l.counted) hn hl source destination with
      ⟨s, t', h⟩ | ⟨t', h, hwhole⟩
    · rw [h] at hrun
      cases hrun
    · rw [h] at hrun
      cases hrun
      exact hwhole

omit hn hl hc in
theorem settles_whole {cs : List Call} (hcs : ∀ c ∈ cs, Transfers c) (hl : l.WholeBalances)
    (h : host.Settles caller cs l t) : t.WholeBalances := by
  induction h with
  | nil => exact hl
  | @cons c cs l l₁ t first rest ih =>
    obtain ⟨n, source, destination, hn, hc⟩ := hcs c List.mem_cons_self
    have hwhole := transfer_whole hn hl hc (invoked_of_host first)
    exact ih (fun d hd => hcs d (List.mem_cons_of_mem _ hd)) hwhole

end Transfer

/-! A burn that fails otherwise has changed nothing, or has taken its amount already. -/

section Burn

variable {caller : Bytes} {c : Call} {debit : Ledger → Outcome Ledger} {mint : Bytes} {l t : Ledger}
  {e : Fault}

theorem burn_error (hc : changes c = .ok [debit, reduceSupply c mint]) (he : e.signal? = none)
    (h : Invoked caller c l (.error e, t)) :
    debit l.counted = .error e ∧ Kept l t ∨ ∃ taken, debit l.counted = .ok taken ∧
      reduceSupply c mint taken = .error e ∧ t = l.counted.withStores taken := by
  cases h with
  | refused => cases he
  | malformed hbad =>
    rw [hc] at hbad
    cases hbad
  | failed hcs hrun =>
    rw [hc] at hcs
    cases hcs
    cases hdebit : debit l.counted with
    | error e' =>
      simp only [inOrder, hdebit] at hrun
      cases hrun
      exact .inl ⟨rfl, .of_eq rfl rfl rfl⟩
    | ok taken =>
      cases hreduce : reduceSupply c mint taken with
      | error e' =>
        simp only [inOrder, hdebit, hreduce] at hrun
        cases hrun
        exact .inr ⟨_, rfl, hreduce, rfl⟩
      | ok next =>
        simp only [inOrder, hdebit, hreduce] at hrun
        cases hrun

theorem withAmount_self {bs : Bytes} {token : TokenAccount} {m : Int}
    (htoken : TokenAccount.decode bs = .ok token) (h : TokenAccount.withAmount bs m = .ok bs) :
    m = token.amount := by
  simp only [TokenAccount.decode, guard_eq_ok] at htoken
  obtain ⟨hlength, hdecoded⟩ := htoken
  simp only [TokenAccount.withAmount, Field.word, bind_eq_ok] at h
  obtain ⟨field, hfield, hsplice⟩ := h
  by_cases hm : 0 ≤ m ∧ m < 2 ^ 64
  · simp only [hm, and_self, if_true, Except.ok.injEq] at hfield
    subst hfield
    have hsame := Except.ok.inj hsplice
    have hstart : TokenAccount.amountOffset ≤ bs.length := by
      simp only [TokenAccount.amountOffset]
      omega
    have hslice : Bytes.slice TokenAccount.amountOffset (Bytes.ofNat 8 m.toNat).length
        (Bytes.splice TokenAccount.amountOffset (Bytes.ofNat 8 m.toNat) bs) =
          Bytes.ofNat 8 m.toNat := Bytes.slice_splice hstart
    rw [hsame, Bytes.length_ofNat] at hslice
    have hbound : m.toNat < 256 ^ 8 := by omega
    have hvalue := congrArg Bytes.value hslice
    rw [Bytes.value_ofNat hbound] at hvalue
    have hamount : token.amount = Bytes.value (bs.slice 64 8) := by
      rw [← Except.ok.inj hdecoded]
    have hoffset : bs.slice TokenAccount.amountOffset 8 = bs.slice 64 8 := rfl
    rw [hoffset] at hvalue
    omega
  · simp only [hm, if_false] at hfield
    cases hfield

end Burn

/-! Transactions that end in a fault. -/

section Transaction

variable {l t : Ledger} {accounts : List AccountView} {data : Bytes} {e : Fault}
  {handed : List Call}

theorem toNat_pos {amount : UInt64} (h : amount ≠ 0) : (0 : Int) < amount.toNat := by
  have hne : amount.toNat ≠ 0 := fun hzero => h (UInt64.toNat_inj.1 hzero)
  omega

theorem plan_cases {rules : Rules} {calls : List Call} (h : Validated rules accounts data calls) :
    (∃ first second, calls = [first, second] ∧ ∀ c ∈ calls, Transfers c) ∨
    ∃ call n mint, calls = [call] ∧ call.amount = .int n ∧ 0 < n ∧
      ((∃ owner, changes call = .ok [debitCompressed call owner, reduceSupply call mint]) ∨
        ∃ key owner, changes call =
          .ok [debitToken call key mint owner, reduceSupply call mint]) := by
  cases h with
  | splitTransfer =>
    refine .inl ⟨_, _, rfl, ?_⟩
    intro c hc
    rcases List.mem_cons.1 hc with rfl | hc
    · exact ⟨_, _, _, rfl, rfl⟩
    · rw [List.mem_singleton.1 hc]
      exact ⟨_, _, _, rfl, rfl⟩
  | directBurn _ validated =>
    obtain ⟨recordView, accepted⟩ := DirectBurn.validate_outcome.1 validated
    exact .inr ⟨_, _, _, rfl, rfl, toNat_pos accepted.nonzero, .inr ⟨_, _, rfl⟩⟩
  | organizationBurn _ validated =>
    obtain ⟨recordView, accepted⟩ := OrganizationBurn.validate_outcome.1 validated
    exact .inr ⟨_, _, _, rfl, rfl, toNat_pos accepted.nonzero, .inl ⟨_, rfl⟩⟩

theorem validated_of_planned {rules : Rules} {c : Call} {cs : List Call}
    (h : planned rules accounts data = c :: cs) : Validated rules accounts data (c :: cs) := by
  have plan := plan_planned rules accounts data
  rw [h] at plan
  cases plan with
  | validated hv => exact hv

theorem settles_of_append_eq_singleton {p : Program} {s : Ledger} {done rest : List Call}
    {c call : Call} (h : done ++ c :: rest = [call]) (settles : host.Settles p.address done l s) :
    c = call ∧ s = l := by
  cases done with
  | nil =>
    obtain ⟨hc, -⟩ := List.cons.inj h
    exact ⟨hc, (Host.settles_nil_iff.1 settles).symm⟩
  | cons d ds =>
    have hlength := congrArg List.length h
    simp only [List.cons_append, List.length_cons, List.length_append, List.length_nil] at hlength
    omega

theorem kept_or_stranded {saved : Snapshot} (hsaved : l.snapshot = .ok saved)
    (hwhole : l.WholeBalances) (he : e.signal? = none)
    (course : Program.Course l.program host accounts data (l.opened accounts) (.error e) handed t) :
    Kept l t ∨ Stranded l accounts data e := by
  cases course with
  | rejected => exact .inl (.of_eq rfl rfl rfl)
  | exhausted r => cases he
  | @stopped done rest c s t e split settles fails =>
    -- A transfer fails with signals only, so the call is a burn, which stands alone in its plan.
    have invoked := invoked_of_host fails
    have hv : Validated l.program.rules accounts data (done ++ c :: rest) := by
      cases done with
      | nil => exact validated_of_planned split
      | cons d ds => exact validated_of_planned split
    rcases plan_cases hv with ⟨first, second, hcalls, htransfers⟩ |
      ⟨call, n, mint, hcalls, hn, hpos, heffects⟩
    · have hdone : ∀ d ∈ done, Transfers d := fun d hd => htransfers d (List.mem_append_left _ hd)
      have hs := settles_whole hdone (show (l.opened accounts).WholeBalances from hwhole) settles
      have hlast : c ∈ done ++ c :: rest := List.mem_append_right _ List.mem_cons_self
      obtain ⟨n, source, destination, hn, hc⟩ := htransfers c hlast
      obtain ⟨signal, rfl⟩ := transfer_error hn hs hc invoked
      cases he
    · obtain ⟨rfl, rfl⟩ := settles_of_append_eq_singleton hcalls settles
      have hburn {debit : Ledger → Outcome Ledger}
          (hc : changes c = .ok [debit, reduceSupply c mint]) :
          Kept l t ∨ Stranded l accounts data e := by
        rcases burn_error hc he invoked with ⟨-, hkept⟩ | ⟨taken, hdebit, hreduce, -⟩
        · exact .inl ⟨hkept.accounts, hkept.compressed, hkept.callLog⟩
        · rw [reduceSupply_int hn] at hreduce
          obtain ⟨stored, hfound, hshort⟩ := adjustSupply_error (Int.le_of_lt hpos) hreduce
          exact .inr (.supply hsaved (split.trans hcalls) hn hc hdebit hfound hshort)
      rcases heffects with ⟨owner, hc⟩ | ⟨key, owner, hc⟩
      · exact hburn hc
      · exact hburn hc

theorem debit_not_kept {call : Call} {n : Int} (hn : call.amount = .int n) (hpos : 0 < n)
    (hwhole : l.WholeBalances) {mint : Bytes} {debit : Ledger → Outcome Ledger} {s taken : Ledger}
    (heffects : (∃ owner, debit = debitCompressed call owner) ∨
      ∃ key owner, debit = debitToken call key mint owner)
    (hdebit : debit l.counted = .ok taken) : ¬ Kept l (s.withStores taken) := by
  intro kept
  rcases heffects with ⟨owner, rfl⟩ | ⟨key, owner, rfl⟩
  · obtain ⟨b, hb⟩ := hwhole owner
    obtain ⟨-, rest, hrest, rfl⟩ := debitCompressed_ok.1 hdebit
    have hbalance : l.counted.compressedBalance owner = l.compressedBalance owner := rfl
    rw [hn, hbalance, Json.Value.sub_of_integer? hb] at hrest
    cases hrest
    have hset : (l.counted.setCompressed owner (.int (b - n))).compressed.get? owner =
        some (.int (b - n)) := Store.get?_set_self _ _ _
    have hkept := hset.symm.trans (kept.compressed owner)
    simp only [compressedBalance, ← hkept, Option.getD_some, Json.Value.integer?_int,
      Option.some.injEq] at hb
    omega
  · obtain ⟨a, token, bs, ha, htoken, -, -, -, hbs, rfl⟩ := debitToken_ok hn hdebit
    have hset : (l.counted.setAccount key { a with data := bs }).accounts.get? key =
        some { a with data := bs } := Store.get?_set_self _ _ _
    have hkept := hset.symm.trans ((kept.accounts key).trans ha)
    have hdata : bs = a.data := congrArg Account.data (Option.some.inj hkept)
    rw [hdata] at hbs
    have hamount := withAmount_self htoken hbs
    omega

theorem not_kept_of_stranded (hwhole : l.WholeBalances) (h : Stranded l accounts data e)
    (course : Program.Course l.program host accounts data (l.opened accounts) (.error e) handed t) :
    ¬ Kept l t := by
  cases h with
  | @supply saved call mint debit taken stored n e hsaved hplan hn heffects hdebit hfound hshort =>
    have hfault : e = .fieldBounds ∨ e = .fieldRange := by
      rcases hshort with ⟨-, he⟩ | ⟨supply, -, -, he⟩
      · exact .inl he
      · exact .inr he
    cases course with
    | rejected hearly =>
      rw [hplan] at hearly
      rcases hearly with h | h | ⟨r, h⟩
      · cases h
      · rcases hfault with h' | h' <;> · rw [h'] at h; cases h
      · rcases hfault with h' | h' <;> · rw [h'] at h; cases h
    | exhausted r => rcases hfault with h | h <;> cases h
    | @stopped done rest c s t e split settles fails =>
      have invoked := invoked_of_host fails
      obtain ⟨rfl, rfl⟩ := settles_of_append_eq_singleton (split.symm.trans hplan) settles
      have he : e.signal? = none := by
        rcases hfault with h | h <;> rw [h] <;> rfl
      rcases burn_error heffects he invoked with ⟨hfailed, -⟩ | ⟨taken', hdebit', -, rfl⟩
      · rw [hdebit] at hfailed
        cases hfailed
      · rw [hdebit] at hdebit'
        cases hdebit'
        rcases plan_cases (validated_of_planned hplan) with ⟨_, _, hcalls, -⟩ |
          ⟨call, n', mint', hcalls, hn', hpos, heffects'⟩
        · cases hcalls
        · cases hcalls
          have hdebits : (∃ owner, debit = debitCompressed c owner) ∨
              ∃ key owner, debit = debitToken c key mint' owner := by
            rcases heffects' with ⟨owner, hc⟩ | ⟨key, owner, hc⟩
            · rw [heffects] at hc
              exact .inl ⟨owner, (List.cons.inj (Except.ok.inj hc)).1⟩
            · rw [heffects] at hc
              exact .inr ⟨key, owner, (List.cons.inj (Except.ok.inj hc)).1⟩
          have hopened : (l.opened accounts).WholeBalances := hwhole
          intro kept
          have hkept : Kept (l.opened accounts)
              ((l.opened accounts).counted.withStores taken) :=
            ⟨kept.accounts, kept.compressed, kept.callLog⟩
          exact debit_not_kept hn' hpos hopened hdebits hdebit hkept

end Transaction

section Sample

theorem sample_whole (supply : Int) : (Sample.ledger supply).WholeBalances := by
  have hbare : (⟨Sample.program, .empty, .empty, [], [], 0, [], none⟩ : Ledger).WholeBalances :=
    fun _ => ⟨0, rfl⟩
  exact hbare.setCompressed Sample.organizationKey 100

theorem sample_without_supply :
    ((Sample.ledger 0).execute Sample.organizationBurnViews Sample.organizationBurn).outcome =
        .error .fieldRange ∧
      ((Sample.ledger 0).execute Sample.organizationBurnViews
        Sample.organizationBurn).ledger.compressed.get? Sample.organizationKey = some (.int 60) ∧
      (Sample.ledger 0).compressed.get? Sample.organizationKey = some (.int 100) := by
  decide +kernel

theorem sample_not_kept : ¬ Kept (Sample.ledger 0)
    ((Sample.ledger 0).execute Sample.organizationBurnViews Sample.organizationBurn).ledger := by
  intro kept
  obtain ⟨-, hafter, hbefore⟩ := sample_without_supply
  have hsame := kept.compressed Sample.organizationKey
  rw [hafter, hbefore] at hsame
  cases hsame

end Sample

section Transaction

variable {l : Ledger} {accounts : List AccountView} {data : Bytes} {e : Fault}

/-- The exact cases in which a failed transaction takes everything back. -/
theorem execute_error_kept_iff (h : (l.execute accounts data).outcome = .error e) :
    ((∃ s, e = .signal s) → Kept l (l.execute accounts data).ledger) ∧
    (l.WholeBalances →
      (Kept l (l.execute accounts data).ledger ↔ ¬ Stranded l accounts data e)) := by
  have executed := execute_executed l accounts data
  rw [h] at executed
  have hstranded : Stranded l accounts data e → e.signal? = none := by
    rintro ⟨-, -, -, -, -, -, ⟨-, rfl⟩ | ⟨-, -, -, rfl⟩⟩ <;> rfl
  generalize (l.execute accounts data).ledger = t at executed
  cases executed with
  | unsaved hsaved =>
    have hkept : Kept l l := .of_eq rfl rfl rfl
    refine ⟨fun _ => hkept, fun _ => ⟨fun _ stranded => ?_, fun _ => hkept⟩⟩
    obtain ⟨hsaved', _⟩ := stranded
    rw [hsaved] at hsaved'
    cases hsaved'
  | @restored s t m haccounts hcompressed hlog _ =>
    have hkept : Kept l ({ t with metrics := m }.endTransaction) :=
      .of_eq haccounts hcompressed hlog
    refine ⟨fun _ => hkept, fun _ => ⟨fun _ stranded => ?_, fun _ => hkept⟩⟩
    cases hstranded stranded
  | @abandoned saved _ handed t m hsaved he course =>
    refine ⟨?_, fun hwhole => ⟨?_, ?_⟩⟩
    · rintro ⟨s, rfl⟩
      cases he
    · intro kept stranded
      exact not_kept_of_stranded hwhole stranded course
        ⟨kept.accounts, kept.compressed, kept.callLog⟩
    · intro hnot
      rcases kept_or_stranded hsaved hwhole he course with kept | stranded
      · exact ⟨kept.accounts, kept.compressed, kept.callLog⟩
      · exact absurd stranded hnot

end Transaction

/-- The burn of 40 from a balance of 100 that leaves 60, though the mint has no supply to burn. -/
theorem sample_burn_stranded : Stranded (Sample.ledger 0) Sample.organizationBurnViews
    Sample.organizationBurn .fieldRange := by
  have hiff := (execute_error_kept_iff sample_without_supply.1).2 (sample_whole 0)
  exact Classical.byContradiction fun hnot => sample_not_kept (hiff.2 hnot)

theorem execute_error_not_always_kept :
    ¬ ∀ (l : Ledger) (accounts : List AccountView) (data : Bytes) (e : Fault),
      (l.execute accounts data).outcome = .error e → Kept l (l.execute accounts data).ledger :=
  fun h => sample_not_kept (h _ _ _ _ sample_without_supply.1)

end Settlement.Ledger
