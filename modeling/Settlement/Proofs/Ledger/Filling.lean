import Settlement.Proofs.Account.RecordCodec
import Settlement.Proofs.Ledger.Headroom
import Settlement.Proofs.Ledger.Supply

/-! Ledgers that are filled after their genesis, with balances and with token accounts of the mint.
Whatever they are filled with, an instruction finds in them what it needs: the record at its own
address, the mint with as much supply as the token accounts hold, and room for a snapshot. -/

namespace Settlement

open Outcome

namespace Ledger

variable {p : Program} {r : Record} {recordKey key owner : Bytes} {l s t u : Ledger} {a b : Account}
  {issued : List (Bytes × Bytes)} {n : Int}

theorem Fits.setAccount (h : l.Fits) (ha : a.lamports.IsWord) : (l.setAccount key a).Fits where
  balances := h.balances
  lamports := by
    intro other b hb
    rw [Ledger.setAccount, Store.get?_set] at hb
    split at hb
    · cases hb
      exact ha
    · exact h.lamports other b hb

theorem Fits.setCompressed (h : l.Fits) {v : Json.Value} (hv : v.IsWord) :
    (l.setCompressed owner v).Fits where
  balances := by
    intro key
    rw [compressedBalance_setCompressed]
    by_cases hkey : key = owner
    · rw [if_pos hkey]
      exact hv
    · rw [if_neg hkey]
      exact h.balances key
  lamports := h.lamports

theorem zero_isWord : (Json.Value.int 0).IsWord := ⟨0, rfl, by omega, by omega⟩

/-- A token account of the mint, in the hands of its program and of its owner. -/
def Held (t : Ledger) (program mint key owner : Bytes) : Prop :=
  ∃ a held, t.accounts.get? key = some a ∧ a.owner = program ∧
    a.data.length = TokenAccount.size ∧ TokenAccount.decode a.data = .ok held ∧
    held.mint = mint ∧ held.owner = owner

structure Furnished (p : Program) (r : Record) (recordKey : Bytes) (issued : List (Bytes × Bytes))
    (t : Ledger) : Prop where
  program : t.program = p
  recorded : ∃ a, t.accounts.get? recordKey = some a ∧ a.owner = p.address ∧
    Record.decode a.data = .ok r
  minted : ∃ a, t.accounts.get? r.mint = some a ∧ a.owner = p.rules.programs.token
  apart : r.mint ≠ recordKey
  tokens : ∀ entry ∈ issued, Held t p.rules.programs.token r.mint entry.1 entry.2
  laid : Laid p.rules.programs.token r.mint (issued.map Prod.fst) t
  backed : t.tokenTotal (issued.map Prod.fst) ≤ t.supplyCount r.mint
  undisturbed : t.failing = []
  fits : t.Fits

theorem Furnished.setCompressed (h : Furnished p r recordKey issued t) {v : Json.Value}
    (hv : v.IsWord) : Furnished p r recordKey issued (t.setCompressed owner v) where
  program := h.program
  recorded := h.recorded
  minted := h.minted
  apart := h.apart
  tokens := h.tokens
  laid := h.laid.of_accounts rfl
  backed := h.backed
  undisturbed := h.undisturbed
  fits := h.fits.setCompressed hv

/-- The two accounts that the creation of a token account writes. -/
theorem createTokenAccount_stores {mint : Bytes} (ha : l.accounts.get? mint = some a)
    (hfree : l.accounts.get? key = none)
    (h : createTokenAccount key mint owner (.int n) l = (.ok (), t)) :
    ∃ data supply, TokenAccount.pack mint owner n = .ok data ∧
      t = (l.setAccount key { Account.empty with
        owner := l.programs.token, data := data }).setAccount mint { a with data := supply } := by
  obtain ⟨data, hdata, hadjust⟩ := createTokenAccount_ok h
  have hne : mint ≠ key := by
    rintro rfl
    rw [ha] at hfree
    cases hfree
  have hstored : (l.setAccount key { Account.empty with
      owner := l.programs.token, data := data }).accounts.get? mint = some a := by
    rw [setAccount, Store.get?_set_of_ne hne]
    exact ha
  obtain ⟨_, supply, _, _, ht⟩ := adjustSupply_int hadjust hstored
  exact ⟨data, supply, hdata, ht⟩

theorem Furnished.createTokenAccount (h : Furnished p r recordKey issued t)
    (hmint : r.mint.length = 32) (howner : owner.length = 32)
    (hfree : t.accounts.get? key = none)
    (hcreate : createTokenAccount key r.mint owner (.int n) t = (.ok (), u)) :
    Furnished p r recordKey ((key, owner) :: issued) u := by
  obtain ⟨m, hm, hmowner⟩ := h.minted
  obtain ⟨data, supply, hdata, hu⟩ := createTokenAccount_stores hm hfree hcreate
  obtain ⟨hsize, hdecode, -⟩ := TokenAccount.pack_ok hdata
  rw [Bytes.fit_of_length hmint, Bytes.fit_of_length howner] at hdecode
  obtain ⟨hlaid, hsums, -, hprogram⟩ := createTokenAccount_posted hcreate h.laid hfree
  have hother {other : Bytes} {b : Account} (hb : t.accounts.get? other = some b)
      (hne : other ≠ r.mint) : u.accounts.get? other = some b := by
    have hkey : other ≠ key := by
      rintro rfl
      rw [hfree] at hb
      cases hb
    rw [hu, setAccount, Store.get?_set_of_ne hne, setAccount, Store.get?_set_of_ne hkey]
    exact hb
  have hnew : key ≠ r.mint := by
    rintro rfl
    rw [hfree] at hm
    cases hm
  have hstored : u.accounts.get? key =
      some { Account.empty with owner := t.programs.token, data := data } := by
    rw [hu, setAccount, Store.get?_set_of_ne hnew]
    exact Store.get?_set_self _ _ _
  have htoken : t.programs.token = p.rules.programs.token := by rw [programs, h.program]
  constructor
  · rw [hprogram]
    exact h.program
  · obtain ⟨a, ha, haowner, harecord⟩ := h.recorded
    exact ⟨a, hother ha (Ne.symm h.apart), haowner, harecord⟩
  · refine ⟨{ m with data := supply }, ?_, hmowner⟩
    rw [hu]
    exact Store.get?_set_self _ _ _
  · exact h.apart
  · intro entry hentry
    rcases List.mem_cons.1 hentry with rfl | hold
    · exact ⟨_, _, hstored, htoken, hsize, hdecode, rfl, rfl⟩
    · obtain ⟨a, held, ha, hrest⟩ := h.tokens entry hold
      have hne : entry.1 ≠ r.mint := by
        intro hsame
        refine h.laid.mint_not_created ?_
        rw [← hsame]
        exact List.mem_map_of_mem hold
      exact ⟨a, held, hother ha hne, hrest⟩
  · exact hlaid
  · have hbefore := h.backed
    change u.tokenTotal (key :: issued.map Prod.fst) ≤ u.supplyCount r.mint
    omega
  · rw [hu]
    exact h.undisturbed
  · have hword : m.lamports.IsWord := h.fits.lamports _ _ hm
    rw [hu]
    exact (h.fits.setAccount zero_isWord).setAccount hword

/-- The record that a genesis stores if it is to be initialized and not paused. -/
def Genesis.record (g : Genesis) : Record := { Record.blank with
  treasury := g.treasury
  secondaryAuthority := g.secondaryAuthority
  transferAuthority := g.transferAuthority
  mint := g.mint
  initialized := true
  selfBump := g.recordBump.toNat
  paused := false }

/-- The keys of a genesis have the length of keys, and the record has an address. -/
structure Genesis.Possible (g : Genesis) (program : Bytes) : Prop where
  keys : ∀ key ∈ [g.treasury, g.transferAuthority, g.secondaryAuthority, g.mint], key.length = 32
  found : Identity.configRecord.find program = .ok (g.recordKey, g.recordBump)
  apart : g.mint ≠ g.recordKey

theorem Genesis.Possible.encoded {g : Genesis} {program : Bytes} (h : g.Possible program) :
    ∃ data, g.record.encode = .ok data ∧ Record.decode data = .ok g.record := by
  have hkeys := h.keys
  simp only [List.forall_mem_cons, List.not_mem_nil, false_implies, implies_true, and_true]
    at hkeys
  obtain ⟨htreasury, htransfer, hsecondary, hmint⟩ := hkeys
  have hblank : systemAddress.length = 32 := by decide
  have hsized : g.record.Sized := by
    refine ⟨rfl, ?_⟩
    simp only [Record.keys, Genesis.record, Record.blank, List.forall_mem_cons, htreasury,
      htransfer, hsecondary, hmint, hblank, List.not_mem_nil, false_implies, implies_true,
      and_true]
  have hrange : g.record.InRange := by
    refine ⟨?_, by simp [Genesis.record, Record.blank], by simp [Genesis.record, Record.blank]⟩
    have hbump := g.recordBump.toNat_lt
    simp only [Genesis.record]
    omega
  obtain ⟨data, hdata, -, hdecode⟩ := Record.exists_encode_decode hsized hrange
  exact ⟨data, hdata, hdecode⟩

end Ledger
end Settlement
