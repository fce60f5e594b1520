import Settlement.Account.Record
import Settlement.Proofs.Account.Field

/-! A record that is written is read back, with its keys in fields of 32 bytes. -/

namespace Settlement.Record

open Outcome

/-- The record with its keys and its discriminator cut off or filled up to the width of their
fields. -/
def fitted (r : Record) : Record := { r with
  treasury := Bytes.fit 32 r.treasury
  secondaryAuthority := Bytes.fit 32 r.secondaryAuthority
  transferAuthority := Bytes.fit 32 r.transferAuthority
  poolAccount := Bytes.fit 32 r.poolAccount
  distributionPool := Bytes.fit 32 r.distributionPool
  incentivePool := Bytes.fit 32 r.incentivePool
  treasuryAccount := Bytes.fit 32 r.treasuryAccount
  mint := Bytes.fit 32 r.mint
  discriminator := Bytes.fit 8 r.discriminator }

theorem decode_encode {r : Record} {data : Bytes} (h : encode r = .ok data) :
    data.length = size ∧ decode data = .ok r.fitted := by
  obtain ⟨bump, hbump, h⟩ := bind_eq_ok.1 h
  obtain ⟨perTx, hperTx, h⟩ := bind_eq_ok.1 h
  obtain ⟨daily, hdaily, h⟩ := bind_eq_ok.1 h
  obtain ⟨minted, hminted, h⟩ := bind_eq_ok.1 h
  obtain ⟨reset, hreset, h⟩ := bind_eq_ok.1 h
  obtain ⟨hbumpLength, hbump⟩ := Field.unsigned_value hbump
  obtain ⟨hperTxLength, hperTx⟩ := Field.unsigned_value hperTx
  obtain ⟨hdailyLength, hdaily⟩ := Field.unsigned_value hdaily
  obtain ⟨hmintedLength, hminted⟩ := Field.unsigned_value hminted
  obtain ⟨hresetLength, hreset⟩ := Field.signed_value hreset
  generalize hfields : [Bytes.fit 8 r.discriminator, Bytes.fit 32 r.treasury,
    Bytes.fit 32 r.secondaryAuthority, Bytes.fit 32 r.transferAuthority,
    Bytes.fit 32 r.poolAccount, Bytes.fit 32 r.distributionPool, Bytes.fit 32 r.incentivePool,
    Bytes.fit 32 r.treasuryAccount, Bytes.fit 32 r.mint, Field.flag r.initialized, bump, perTx,
    daily, minted, reset, Field.flag r.paused, List.replicate 64 0] = fields at h
  have hdata : data = fields.flatten := (Except.ok.inj h).symm
  have hwidths : fields.map List.length = widths := by
    rw [← hfields]
    simp [hbumpLength, hperTxLength, hdailyLength, hmintedLength, hresetLength, Field.flag, widths]
  have hcut : Bytes.cut widths data = fields := by
    have hflatten := Bytes.cut_flatten [] hwidths
    rwa [List.append_nil, ← hdata] at hflatten
  have hsize : data.length = size := by
    rw [hdata, List.length_flatten, hwidths]
    decide
  refine ⟨hsize, ?_⟩
  rw [decode, if_neg (not_not_intro hsize), hcut, ← hfields]
  simp only [Field.readFlag_flag, hbump, hperTx, hdaily, hminted, hreset, fitted]

end Settlement.Record
