import Settlement.Account.Token
import Settlement.Proofs.Account.Field
import Settlement.Proofs.Bytes.Splice

/-! Token accounts and mints: what is written is read back, and a writer of one field changes no
other one and no length. -/

namespace Settlement

open Outcome

namespace TokenAccount

variable {data written : Bytes} {n : Int}

theorem decode_of_size (h : size ≤ data.length) :
    ∃ token, decode data = .ok token := by
  have hlong : ¬ data.length < 72 := by
    have hsize : 72 ≤ size := by decide
    omega
  exact ⟨_, by rw [decode, if_neg hlong]⟩

theorem pack_ok {mint owner : Bytes} (h : pack mint owner n = .ok data) :
    data.length = size ∧
      decode data = .ok ⟨Bytes.fit 32 mint, Bytes.fit 32 owner, n.toNat⟩ ∧ 0 ≤ n := by
  obtain ⟨amount, hamount, hdata⟩ := bind_eq_ok.1 h
  obtain ⟨⟨hpos, hlt⟩, rfl⟩ := Field.unsigned_ok.1 hamount
  cases hdata
  generalize hrest : List.replicate 36 (0 : UInt8) ++ [1] ++ List.replicate 56 0 = rest
  have hlength : rest.length = 93 := by
    rw [← hrest]
    rfl
  have hdata : Bytes.fit 32 mint ++ Bytes.fit 32 owner ++ Bytes.ofNat 8 n.toNat ++
      List.replicate 36 0 ++ [1] ++ List.replicate 56 0 =
      Bytes.fit 32 mint ++ Bytes.fit 32 owner ++ Bytes.ofNat 8 n.toNat ++ rest := by
    simp only [← hrest, List.append_assoc]
  rw [hdata]
  have hmint : Bytes.slice 0 32 (Bytes.fit 32 mint ++ Bytes.fit 32 owner ++
      Bytes.ofNat 8 n.toNat ++ rest) = Bytes.fit 32 mint := by
    rw [List.append_assoc, List.append_assoc]
    exact Bytes.slice_front (Bytes.length_fit 32 mint) _
  have howner : Bytes.slice 32 32 (Bytes.fit 32 mint ++ Bytes.fit 32 owner ++
      Bytes.ofNat 8 n.toNat ++ rest) = Bytes.fit 32 owner := by
    rw [List.append_assoc (_ ++ _)]
    exact Bytes.slice_middle (Bytes.length_fit 32 mint) (Bytes.length_fit 32 owner) _
  have hvalue : Bytes.slice 64 8 (Bytes.fit 32 mint ++ Bytes.fit 32 owner ++
      Bytes.ofNat 8 n.toNat ++ rest) = Bytes.ofNat 8 n.toNat :=
    Bytes.slice_middle (by simp) (by simp) rest
  have hsize : (Bytes.fit 32 mint ++ Bytes.fit 32 owner ++ Bytes.ofNat 8 n.toNat ++ rest).length =
      size := by
    simp [hlength, size]
  refine ⟨hsize, ?_, hpos⟩
  rw [decode, if_neg (by rw [hsize]; decide), hmint, howner, hvalue,
    Field.value_ofNat_toNat hpos hlt]

theorem withAmount_ok : withAmount data n = .ok written ↔
    (0 ≤ n ∧ n < 2 ^ 64) ∧ written = Bytes.splice amountOffset (Bytes.ofNat 8 n.toNat) data := by
  simp only [withAmount, bind_eq_ok, Field.word_ok]
  constructor
  · rintro ⟨field, ⟨hword, rfl⟩, h⟩
    exact ⟨hword, (Except.ok.inj h).symm⟩
  · rintro ⟨hword, rfl⟩
    exact ⟨_, ⟨hword, rfl⟩, rfl⟩

theorem decode_withAmount {token : TokenAccount} (h : decode data = .ok token)
    (hwritten : withAmount data n = .ok written) :
    written.length = data.length ∧ decode written = .ok { token with amount := n.toNat } := by
  obtain ⟨⟨hpos, hlt⟩, rfl⟩ := withAmount_ok.1 hwritten
  obtain ⟨hlong, htoken⟩ := guard_eq_ok.1 h
  cases htoken
  have hoffset : amountOffset = 64 := rfl
  have hwidth : (Bytes.ofNat 8 n.toNat).length = 8 := Bytes.length_ofNat 8 _
  have hlength : (Bytes.splice amountOffset (Bytes.ofNat 8 n.toNat) data).length = data.length :=
    Bytes.length_splice (by omega)
  refine ⟨hlength, ?_⟩
  have hamount : Bytes.slice 64 8 (Bytes.splice 64 (Bytes.ofNat 8 n.toNat) data) =
      Bytes.ofNat 8 n.toNat := Bytes.slice_splice_self (by omega) hwidth
  rw [decode, if_neg (by omega), hoffset, hamount, Field.value_ofNat_toNat hpos hlt,
    Bytes.slice_splice_apart (by omega) (by omega), Bytes.slice_splice_apart (by omega) (by omega)]

theorem withAmount_sameOutside {token : TokenAccount} (h : decode data = .ok token)
    (hwritten : withAmount data n = .ok written) :
    Bytes.SameOutside amountOffset 8 data written := by
  obtain ⟨-, rfl⟩ := withAmount_ok.1 hwritten
  obtain ⟨hlong, -⟩ := guard_eq_ok.1 h
  exact Bytes.splice_sameOutside (Bytes.length_ofNat 8 _) (Nat.not_lt.1 hlong)

end TokenAccount

namespace Mint

variable {data written : Bytes} {n : Int}

theorem pack_ok {decimals : Int} (h : pack n decimals = .ok data) :
    data.length = size ∧ supply data = .ok n.toNat ∧ 0 ≤ n := by
  obtain ⟨field, hfield, h⟩ := bind_eq_ok.1 h
  obtain ⟨d, -, hdata⟩ := bind_eq_ok.1 h
  obtain ⟨⟨hpos, hlt⟩, rfl⟩ := Field.unsigned_ok.1 hfield
  cases hdata
  have hsize : (List.replicate 36 0 ++ Bytes.ofNat 8 n.toNat ++ [d, 1] ++
      List.replicate 36 0).length = size := by
    simp [size]
  have hvalue : Bytes.slice 36 8 (List.replicate 36 0 ++ Bytes.ofNat 8 n.toNat ++ [d, 1] ++
      List.replicate 36 0) = Bytes.ofNat 8 n.toNat := by
    rw [List.append_assoc (_ ++ _)]
    exact Bytes.slice_middle (by simp) (by simp) _
  refine ⟨hsize, ?_, hpos⟩
  rw [supply, if_neg (by rw [hsize]; decide), supplyOffset, hvalue,
    Field.value_ofNat_toNat hpos hlt]

theorem withSupply_ok : withSupply data n = .ok written ↔
    (0 ≤ n ∧ n < 2 ^ 64) ∧ supplyOffset + 8 ≤ data.length ∧
      written = Bytes.splice supplyOffset (Bytes.ofNat 8 n.toNat) data := by
  simp only [withSupply, bind_eq_ok, Field.unsigned_ok, guard_eq_ok, Nat.not_lt]
  constructor
  · rintro ⟨field, ⟨hword, rfl⟩, hlong, h⟩
    exact ⟨hword, hlong, (Except.ok.inj h).symm⟩
  · rintro ⟨hword, hlong, rfl⟩
    exact ⟨_, ⟨hword, rfl⟩, hlong, rfl⟩

theorem supply_withSupply (h : withSupply data n = .ok written) :
    written.length = data.length ∧ supply written = .ok n.toNat := by
  obtain ⟨⟨hpos, hlt⟩, hlong, rfl⟩ := withSupply_ok.1 h
  have hoffset : supplyOffset = 36 := rfl
  have hwidth : (Bytes.ofNat 8 n.toNat).length = 8 := Bytes.length_ofNat 8 _
  have hlength : (Bytes.splice supplyOffset (Bytes.ofNat 8 n.toNat) data).length = data.length :=
    Bytes.length_splice (by omega)
  refine ⟨hlength, ?_⟩
  have hvalue : Bytes.slice 36 8 (Bytes.splice 36 (Bytes.ofNat 8 n.toNat) data) =
      Bytes.ofNat 8 n.toNat := Bytes.slice_splice_self (by omega) hwidth
  rw [supply, if_neg (by omega), hoffset, hvalue, Field.value_ofNat_toNat hpos hlt]

theorem withSupply_sameOutside (h : withSupply data n = .ok written) :
    Bytes.SameOutside supplyOffset 8 data written := by
  obtain ⟨-, hlong, rfl⟩ := withSupply_ok.1 h
  exact Bytes.splice_sameOutside (Bytes.length_ofNat 8 _) hlong

end Mint
end Settlement
