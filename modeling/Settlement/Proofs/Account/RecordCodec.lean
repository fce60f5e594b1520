import Settlement.Proofs.Account.Record

/-! The codec of the configuration record. A record whose keys fill their fields and whose numbers
fit theirs is read back as it was; a buffer of the record's size is written back as it was, but for
its flags, which are written as 0 or 1, and its reserve, which is written as zeros. -/

namespace Settlement

namespace Bytes

theorem length_cut {widths : List Nat} {bs : Bytes} (h : bs.length = widths.sum) :
    (cut widths bs).map List.length = widths := by
  induction widths generalizing bs with
  | nil => rfl
  | cons w ws ih =>
    rw [List.sum_cons] at h
    have htake : (bs.take w).length = w := List.length_take_of_le (by omega)
    have hdrop : (bs.drop w).length = ws.sum := by
      rw [List.length_drop]
      omega
    rw [cut, List.map_cons, htake, ih hdrop]

theorem ofNat_value_of_length {width : Nat} {bs : Bytes} (h : bs.length = width) :
    ofNat width (value bs) = bs := by
  rw [← h, ofNat_value]

end Bytes

namespace Field

variable {width : Nat} {n : Int} {bs : Bytes}

theorem unsigned_of_value (h : bs.length = width) : unsigned width (Bytes.value bs) = .ok bs := by
  have hlt := Bytes.value_lt bs
  have hcast : ((256 ^ width : Nat) : Int) = 256 ^ width := by
    rw [Int.natCast_pow]
    rfl
  rw [h] at hlt
  refine unsigned_ok.2 ⟨⟨by omega, by omega⟩, ?_⟩
  rw [Int.toNat_natCast, Bytes.ofNat_value_of_length h]

theorem signed_error {e : Fault} : signed 8 n = .error e ↔
    ¬ (-2 ^ 63 ≤ n ∧ n < 2 ^ 63) ∧ e = .fieldRange := by
  have hhalf : (256 : Int) ^ 8 / 2 = 2 ^ 63 := by decide
  by_cases h : -2 ^ 63 ≤ n ∧ n < 2 ^ 63
  · simp only [signed, hhalf, h, and_self, if_true, reduceCtorEq, not_true_eq_false, false_and]
  · simp only [signed, hhalf, h, if_false, Except.error.injEq, not_false_eq_true, true_and,
      eq_comm]

theorem signed_range (h : signed 8 n = .ok bs) : -2 ^ 63 ≤ n ∧ n < 2 ^ 63 := by
  by_cases hrange : -2 ^ 63 ≤ n ∧ n < 2 ^ 63
  · exact hrange
  · rw [signed_error.2 ⟨hrange, rfl⟩] at h
    cases h

theorem signed_of_readSigned (h : bs.length = 8) : signed 8 (readSigned bs) = .ok bs := by
  have hlt := Bytes.value_lt bs
  have hpow : (256 : Int) ^ 8 = 18446744073709551616 := by decide
  have hvalue : readSigned bs % 18446744073709551616 = Bytes.value bs := by
    simp only [readSigned, h, hpow]
    rw [h] at hlt
    split <;> omega
  have hrange : -(18446744073709551616 / 2) ≤ readSigned bs ∧
      readSigned bs < 18446744073709551616 / 2 := by
    simp only [readSigned, h, hpow]
    rw [h] at hlt
    split <;> omega
  simp only [signed, hpow, hrange, and_self, if_true, hvalue, Int.toNat_natCast,
    Bytes.ofNat_value_of_length h]

theorem flag_readFlag (b : UInt8) : flag (readFlag [b]) = [if b = 0 then 0 else 1] := by
  have hzero : Bytes.value [b] = 0 ↔ b = 0 := by
    rw [← UInt8.toNat_inj]
    simp [Bytes.value]
  by_cases hb : b = 0
  · simp [flag, readFlag, hb, Bytes.value]
  · simp [flag, readFlag, hb, hzero]

end Field

namespace Record

open Outcome

def keys (r : Record) : List Bytes :=
  [r.treasury, r.secondaryAuthority, r.transferAuthority, r.poolAccount, r.distributionPool,
    r.incentivePool, r.treasuryAccount, r.mint]

structure Sized (r : Record) : Prop where
  discriminator : r.discriminator.length = 8
  keys : ∀ key ∈ r.keys, key.length = 32

structure InRange (r : Record) : Prop where
  bump : 0 ≤ r.selfBump ∧ r.selfBump < 256
  limits : ∀ n ∈ [r.perTxAutoLimit, r.dailyAutoLimit, r.dailyMinted], 0 ≤ n ∧ n < 2 ^ 64
  timestamp : -2 ^ 63 ≤ r.lastResetTimestamp ∧ r.lastResetTimestamp < 2 ^ 63

variable {r : Record}

theorem Sized.fitted (h : r.Sized) : r.fitted = r := by
  have hkeys := h.keys
  simp only [Record.keys, List.forall_mem_cons, List.not_mem_nil, false_implies, implies_true,
    and_true] at hkeys
  obtain ⟨h1, h2, h3, h4, h5, h6, h7, h8⟩ := hkeys
  simp only [Record.fitted, Bytes.fit_of_length, h1, h2, h3, h4, h5, h6, h7, h8, h.discriminator]

theorem InRange.of_encode {data : Bytes} (h : encode r = .ok data) : r.InRange := by
  obtain ⟨_, hbump, h⟩ := bind_eq_ok.1 h
  obtain ⟨_, hperTx, h⟩ := bind_eq_ok.1 h
  obtain ⟨_, hdaily, h⟩ := bind_eq_ok.1 h
  obtain ⟨_, hminted, h⟩ := bind_eq_ok.1 h
  obtain ⟨_, hreset, _⟩ := bind_eq_ok.1 h
  have hbump := (Field.unsigned_ok.1 hbump).1
  have hperTx := (Field.unsigned_ok.1 hperTx).1
  have hdaily := (Field.unsigned_ok.1 hdaily).1
  have hminted := (Field.unsigned_ok.1 hminted).1
  constructor
  · simpa using hbump
  · simp only [List.forall_mem_cons, List.not_mem_nil, false_implies, implies_true, and_true]
    exact ⟨hperTx, hdaily, hminted⟩
  · exact Field.signed_range hreset

theorem encode_error {e : Fault} : encode r = .error e ↔ e = .fieldRange ∧ ¬ r.InRange := by
  have hrefused {e' : Fault} (h : encode r = .error e') : e' = .fieldRange ∧ ¬ r.InRange := by
    have hlimit {n : Int} (hn : Field.unsigned 8 n = .error e')
        (hmem : n ∈ [r.perTxAutoLimit, r.dailyAutoLimit, r.dailyMinted]) :
        e' = .fieldRange ∧ ¬ r.InRange := by
      obtain ⟨hout, he⟩ := Field.unsigned_error.1 hn
      exact ⟨he, fun hrange => hout (hrange.limits n hmem)⟩
    rcases bind_eq_error.1 h with hbump | ⟨_, _, h⟩
    · obtain ⟨hout, he⟩ := Field.unsigned_error.1 hbump
      exact ⟨he, fun hrange => hout (by simpa using hrange.bump)⟩
    rcases bind_eq_error.1 h with hperTx | ⟨_, _, h⟩
    · exact hlimit hperTx (by simp)
    rcases bind_eq_error.1 h with hdaily | ⟨_, _, h⟩
    · exact hlimit hdaily (by simp)
    rcases bind_eq_error.1 h with hminted | ⟨_, _, h⟩
    · exact hlimit hminted (by simp)
    rcases bind_eq_error.1 h with hreset | ⟨_, _, h⟩
    · obtain ⟨hout, he⟩ := Field.signed_error.1 hreset
      exact ⟨he, fun hrange => hout hrange.timestamp⟩
    · cases h
  constructor
  · exact hrefused
  · rintro ⟨rfl, hrange⟩
    cases hresult : encode r with
    | ok data => exact absurd (InRange.of_encode hresult) hrange
    | error e => rw [(hrefused hresult).1]

theorem exists_encode (h : r.InRange) : ∃ data, encode r = .ok data := by
  cases hresult : encode r with
  | ok data => exact ⟨data, rfl⟩
  | error e => exact absurd h (encode_error.1 hresult).2

theorem exists_encode_decode (hsized : r.Sized) (hrange : r.InRange) :
    ∃ data, encode r = .ok data ∧ data.length = size ∧ decode data = .ok r := by
  obtain ⟨data, hdata⟩ := exists_encode hrange
  obtain ⟨hlength, hdecode⟩ := decode_encode hdata
  rw [hsized.fitted] at hdecode
  exact ⟨data, hdata, hlength, hdecode⟩

/-- The byte of a flag as 0 or 1, a byte of the reserve as 0, and any other byte as it is. -/
def canonicalByte (i : Nat) (b : UInt8) : UInt8 :=
  if i = 264 ∨ i = 298 then (if b = 0 then 0 else 1) else if 298 < i then 0 else b

def canonical (data : Bytes) : Bytes := data.mapIdx canonicalByte

theorem mapIdx_canonicalByte (start : Nat) (part : Bytes)
    (h : start + part.length ≤ 264 ∨ 264 < start ∧ start + part.length ≤ 298) :
    part.mapIdx (fun i => canonicalByte (i + start)) = part := by
  refine List.ext_getElem (List.length_mapIdx) fun i _ hi => ?_
  have hflag : ¬ (i + start = 264 ∨ i + start = 298) := by omega
  have hreserve : ¬ 298 < i + start := by omega
  rw [List.getElem_mapIdx, canonicalByte, if_neg hflag, if_neg hreserve]

theorem mapIdx_canonicalByte_reserve {start : Nat} (part : Bytes) (h : 298 < start) :
    part.mapIdx (fun i => canonicalByte (i + start)) = List.replicate part.length 0 := by
  refine List.mapIdx_eq_replicate_iff.2 fun i _ => ?_
  have hflag : ¬ (i + start = 264 ∨ i + start = 298) := by omega
  have hreserve : 298 < i + start := by omega
  rw [canonicalByte, if_neg hflag, if_pos hreserve]

theorem canonical_append (front middle reserve : Bytes) (initialized paused : UInt8)
    (hfront : front.length = 264) (hmiddle : middle.length = 33) (hreserve : reserve.length = 64) :
    canonical (front ++ ([initialized] ++ (middle ++ ([paused] ++ reserve)))) =
      front ++ (Field.flag (Field.readFlag [initialized]) ++
        (middle ++ (Field.flag (Field.readFlag [paused]) ++ List.replicate 64 0))) := by
  have hkept := mapIdx_canonicalByte 0 front (by omega)
  have hkept' := mapIdx_canonicalByte 265 middle (by omega)
  have hzero := mapIdx_canonicalByte_reserve reserve (show 298 < 299 by omega)
  simp only [Nat.add_zero] at hkept
  simp [canonical, List.mapIdx_append, hfront, hmiddle, hkept, hkept', hzero, hreserve,
    Nat.add_assoc, Field.flag_readFlag, canonicalByte]

theorem encode_decode {data : Bytes} (h : data.length = size) :
    ∃ r, decode data = .ok r ∧ encode r = .ok (canonical data) := by
  have hlengths : (Bytes.cut widths data).map List.length = widths := Bytes.length_cut h
  have hflatten : (Bytes.cut widths data).flatten = data := Bytes.flatten_cut h
  rw [decode, if_neg (not_not_intro h)]
  generalize Bytes.cut widths data = fields at hlengths hflatten
  simp only [widths, List.map_eq_cons_iff, List.map_eq_nil_iff] at hlengths
  obtain ⟨disc, _, rfl, hdisc, k1, _, rfl, h1, k2, _, rfl, h2, k3, _, rfl, h3, k4, _, rfl, h4,
    k5, _, rfl, h5, k6, _, rfl, h6, k7, _, rfl, h7, k8, _, rfl, h8, initialized, _, rfl, hinit,
    bump, _, rfl, hbump, perTx, _, rfl, hperTx, daily, _, rfl, hdaily, minted, _, rfl, hminted,
    reset, _, rfl, hreset, paused, _, rfl, hpaused, reserve, _, rfl, hreserve, rfl⟩ := hlengths
  obtain ⟨initialized, rfl⟩ := List.length_eq_one_iff.1 hinit
  obtain ⟨paused, rfl⟩ := List.length_eq_one_iff.1 hpaused
  refine ⟨_, rfl, ?_⟩
  have hcanonical := canonical_append (disc ++ k1 ++ k2 ++ k3 ++ k4 ++ k5 ++ k6 ++ k7 ++ k8)
    (bump ++ perTx ++ daily ++ minted ++ reset) reserve initialized paused
    (by simp [hdisc, h1, h2, h3, h4, h5, h6, h7, h8])
    (by simp [hbump, hperTx, hdaily, hminted, hreset]) hreserve
  simp only [encode, Field.unsigned_of_value, hbump, hperTx, hdaily, hminted,
    Field.signed_of_readSigned hreset, ok_bind, Bytes.fit_of_length, hdisc, h1, h2, h3, h4, h5, h6,
    h7, h8]
  rw [← hflatten]
  simp only [List.flatten_cons, List.flatten_nil, List.append_nil, List.append_assoc]
    at hcanonical ⊢
  rw [hcanonical]
  rfl

theorem decode_of_length_ne {data : Bytes} (h : data.length ≠ size) :
    decode data = .error (.recordLength data.length) := by
  rw [decode, if_pos h]

theorem codec_exact :
    (∀ r : Record, r.Sized → r.InRange →
      ∃ data, encode r = .ok data ∧ data.length = size ∧ decode data = .ok r) ∧
    (∀ data : Bytes, data.length = size →
      ∃ r, decode data = .ok r ∧ encode r = .ok (canonical data)) ∧
    (∀ data : Bytes, data.length ≠ size → ∃ refusal, decode data = .error refusal ∧
      refusal.signal = .host .invalidAccountData (.text refusal.message)) ∧
    ∀ (r : Record) (e : Fault), encode r = .error e ↔ e = .fieldRange ∧ ¬ r.InRange := by
  refine ⟨fun _ => exists_encode_decode, fun _ => encode_decode, ?_, fun _ _ => encode_error⟩
  intro data hlength
  exact ⟨_, decode_of_length_ne hlength, rfl⟩

def extreme : Record := { blank with
  mint := List.replicate 32 255
  selfBump := 255
  dailyMinted := 2 ^ 64 - 1
  lastResetTimestamp := -2 ^ 63
  paused := true }

def sevens : Bytes := List.replicate size 7

theorem extreme_codec :
    extreme.Sized ∧ extreme.InRange ∧
      (∃ data, encode extreme = .ok data ∧ data.length = size ∧ decode data = .ok extreme) ∧
      sevens.length = size ∧ ∃ r, decode sevens = .ok r ∧ encode r = .ok (canonical sevens) := by
  have hsized : extreme.Sized := ⟨by decide, by decide⟩
  have hrange : extreme.InRange := ⟨by decide, by decide, by decide⟩
  have hlength : sevens.length = size := List.length_replicate
  exact ⟨hsized, hrange, codec_exact.1 extreme hsized hrange, hlength,
    codec_exact.2.1 sevens hlength⟩

end Record
end Settlement
