import Settlement.Proofs.Account.Token

/-! The laws of the two layouts. A new account or mint is read back as it was made. The writers of
the amount and of the supply store every word, refuse every other number, leave what stands beside
the word as it is, and replace what they have written before. -/

namespace Settlement

open Outcome

/-- A word of eight bytes within a layout, with its reader and its writer. The fault is that of a
number that is no word. -/
structure WordField (start : Nat) (read : Bytes → Outcome Nat)
    (write : Bytes → Int → Outcome Bytes) (fault : Fault) : Prop where
  stores : ∀ (data : Bytes) (n : Int), start + 8 ≤ data.length → 0 ≤ n → n < 2 ^ 64 →
    ∃ written, write data n = .ok written ∧ Bytes.SameOutside start 8 data written ∧
      read written = .ok n.toNat
  overwrites : ∀ (data first : Bytes) (m n : Int), start + 8 ≤ data.length →
    write data m = .ok first → write first n = write data n
  refuses : ∀ (data : Bytes) (n : Int), ¬ (0 ≤ n ∧ n < 2 ^ 64) → write data n = .error fault

/-- A writer that splices words, and a reader of the bytes that it splices. -/
theorem WordField.of_splice {start : Nat} {read : Bytes → Outcome Nat}
    {write : Bytes → Int → Outcome Bytes} {fault : Fault}
    (hread : ∀ data : Bytes, start + 8 ≤ data.length →
      read data = .ok (Bytes.value (data.slice start 8)))
    (hwrite : ∀ (data : Bytes) (n : Int), start + 8 ≤ data.length → 0 ≤ n → n < 2 ^ 64 →
      write data n = .ok (Bytes.splice start (Bytes.ofNat 8 n.toNat) data))
    (hrefuse : ∀ (data : Bytes) (n : Int), ¬ (0 ≤ n ∧ n < 2 ^ 64) → write data n = .error fault) :
    WordField start read write fault where
  stores := by
    intro data n hlong hpos hlt
    have hwidth : (Bytes.ofNat 8 n.toNat).length = 8 := Bytes.length_ofNat 8 _
    have hsame := Bytes.splice_sameOutside hwidth hlong
    refine ⟨_, hwrite data n hlong hpos hlt, hsame, ?_⟩
    rw [hread _ (by rw [hsame.length]; exact hlong),
      Bytes.slice_splice_self (Nat.le_of_add_right_le hlong) hwidth,
      Field.value_ofNat_toNat hpos hlt]
  overwrites := by
    intro data first m n hlong h
    have hm : 0 ≤ m ∧ m < 2 ^ 64 := by
      refine Decidable.byContradiction fun hout => ?_
      rw [hrefuse data m hout] at h
      cases h
    rw [hwrite data m hlong hm.1 hm.2] at h
    cases h
    have hwidth : (Bytes.ofNat 8 m.toNat).length = 8 := Bytes.length_ofNat 8 _
    have hlength := (Bytes.splice_sameOutside hwidth hlong).length
    by_cases hn : 0 ≤ n ∧ n < 2 ^ 64
    · have hother : (Bytes.ofNat 8 n.toNat).length = (Bytes.ofNat 8 m.toNat).length := by
        rw [Bytes.length_ofNat, hwidth]
      rw [hwrite data n hlong hn.1 hn.2, hwrite _ n (by rw [hlength]; exact hlong) hn.1 hn.2,
        Bytes.splice_splice hother (by rw [hwidth]; exact hlong)]
    · rw [hrefuse data n hn, hrefuse _ n hn]
  refuses := hrefuse

namespace TokenAccount

variable {data : Bytes} {n : Int}

theorem decode_of_length (h : 72 ≤ data.length) :
    decode data = .ok ⟨data.slice 0 32, data.slice 32 32, Bytes.value (data.slice 64 8)⟩ :=
  guard_eq_ok.2 ⟨Nat.not_lt.2 h, rfl⟩

theorem amount_field :
    WordField amountOffset (fun data => (decode data).map (·.amount)) withAmount .wordRange :=
  .of_splice (fun data hlong => by rw [decode_of_length hlong]; rfl)
    (fun _ _ _ hpos hlt => withAmount_ok.2 ⟨⟨hpos, hlt⟩, rfl⟩)
    (fun _ _ hout => bind_eq_error.2 (.inl (Field.word_error.2 ⟨hout, rfl⟩)))

theorem exists_pack (mint owner : Bytes) (hpos : 0 ≤ n) (hlt : n < 2 ^ 64) :
    ∃ data, pack mint owner n = .ok data := by
  have hfield : Field.unsigned 8 n = .ok (Bytes.ofNat 8 n.toNat) :=
    Field.unsigned_ok.2 ⟨⟨hpos, hlt⟩, rfl⟩
  exact ⟨_, bind_eq_ok.2 ⟨_, hfield, rfl⟩⟩

theorem decode_pack {mint owner : Bytes} (hmint : mint.length = 32) (howner : owner.length = 32)
    (hpos : 0 ≤ n) (hlt : n < 2 ^ 64) :
    ∃ data, pack mint owner n = .ok data ∧ data.length = size ∧
      decode data = .ok ⟨mint, owner, n.toNat⟩ := by
  obtain ⟨data, hpack⟩ := exists_pack mint owner hpos hlt
  obtain ⟨hsize, hdecode, -⟩ := pack_ok hpack
  rw [Bytes.fit_of_length hmint, Bytes.fit_of_length howner] at hdecode
  exact ⟨data, hpack, hsize, hdecode⟩

theorem pack_error (mint owner : Bytes) (hout : ¬ (0 ≤ n ∧ n < 2 ^ 64)) :
    pack mint owner n = .error .fieldRange :=
  bind_eq_error.2 (.inl (Field.unsigned_error.2 ⟨hout, rfl⟩))

theorem exists_decode_withAmount (hlong : 72 ≤ data.length) (hpos : 0 ≤ n) (hlt : n < 2 ^ 64) :
    ∃ token written, decode data = .ok token ∧ withAmount data n = .ok written ∧
      decode written = .ok { token with amount := n.toNat } := by
  have htoken := decode_of_length hlong
  obtain ⟨written, hwritten⟩ : ∃ written, withAmount data n = .ok written :=
    ⟨_, withAmount_ok.2 ⟨⟨hpos, hlt⟩, rfl⟩⟩
  exact ⟨_, written, htoken, hwritten, (decode_withAmount htoken hwritten).2⟩

end TokenAccount

namespace Mint

variable {data : Bytes} {n d : Int}

theorem supply_of_length (h : supplyOffset + 8 ≤ data.length) :
    supply data = .ok (Bytes.value (data.slice supplyOffset 8)) :=
  guard_eq_ok.2 ⟨Nat.not_lt.2 h, rfl⟩

theorem supply_field : WordField supplyOffset supply withSupply .fieldRange :=
  .of_splice (fun _ hlong => supply_of_length hlong)
    (fun _ _ hlong hpos hlt => withSupply_ok.2 ⟨⟨hpos, hlt⟩, hlong, rfl⟩)
    (fun _ _ hout => bind_eq_error.2 (.inl (Field.unsigned_error.2 ⟨hout, rfl⟩)))

theorem decimals_pack (h : pack n d = .ok data) :
    data[44]? = some (UInt8.ofNat d.toNat) := by
  obtain ⟨field, hfield, h⟩ := bind_eq_ok.1 h
  obtain ⟨decimals, hdecimals, h⟩ := bind_eq_ok.1 h
  obtain ⟨-, rfl⟩ := Field.unsigned_ok.1 hfield
  obtain ⟨-, rfl⟩ := Field.byte_ok.1 hdecimals
  cases h
  have hfront : (List.replicate 36 0 ++ Bytes.ofNat 8 n.toNat).length = 44 := by
    simp
  rw [List.append_assoc, List.getElem?_append_right (by omega), hfront, Nat.sub_self]
  rfl

theorem supply_pack (hpos : 0 ≤ n) (hlt : n < 2 ^ 64) (hdpos : 0 ≤ d) (hdlt : d < 256) :
    ∃ data, pack n d = .ok data ∧ data.length = size ∧ supply data = .ok n.toNat ∧
      data[44]? = some (UInt8.ofNat d.toNat) := by
  have hfield : Field.unsigned 8 n = .ok (Bytes.ofNat 8 n.toNat) :=
    Field.unsigned_ok.2 ⟨⟨hpos, hlt⟩, rfl⟩
  have hdecimals : Field.byte d = .ok (UInt8.ofNat d.toNat) :=
    Field.byte_ok.2 ⟨⟨hdpos, hdlt⟩, rfl⟩
  obtain ⟨data, hpack⟩ : ∃ data, pack n d = .ok data :=
    ⟨_, bind_eq_ok.2 ⟨_, hfield, bind_eq_ok.2 ⟨_, hdecimals, rfl⟩⟩⟩
  obtain ⟨hsize, hsupply, -⟩ := pack_ok hpack
  exact ⟨data, hpack, hsize, hsupply, decimals_pack hpack⟩

theorem pack_error (hout : ¬ (0 ≤ n ∧ n < 2 ^ 64)) : pack n d = .error .fieldRange :=
  bind_eq_error.2 (.inl (Field.unsigned_error.2 ⟨hout, rfl⟩))

theorem pack_error_decimals (hpos : 0 ≤ n) (hlt : n < 2 ^ 64) (hout : ¬ (0 ≤ d ∧ d < 256)) :
    pack n d = .error .byteRange :=
  bind_eq_error.2 (.inr ⟨_, Field.unsigned_ok.2 ⟨⟨hpos, hlt⟩, rfl⟩,
    bind_eq_error.2 (.inl (Field.byte_error.2 ⟨hout, rfl⟩))⟩)

theorem withSupply_short (hshort : data.length < supplyOffset + 8) (hpos : 0 ≤ n)
    (hlt : n < 2 ^ 64) : withSupply data n = .error .fieldBounds :=
  bind_eq_error.2 (.inr ⟨_, Field.unsigned_ok.2 ⟨⟨hpos, hlt⟩, rfl⟩,
    guard_eq_error.2 (.inl ⟨hshort, rfl⟩)⟩)

end Mint

/-- The layout of token accounts. What is written into any 72 bytes is read back beside the mint
and the owner that stand there. -/
structure TokenAccount.Lawful : Prop where
  packs : ∀ (mint owner : Bytes) (n : Int), mint.length = 32 → owner.length = 32 → 0 ≤ n →
    n < 2 ^ 64 → ∃ data, pack mint owner n = .ok data ∧ data.length = 165 ∧
      decode data = .ok ⟨mint, owner, n.toNat⟩
  packsWords : ∀ (mint owner : Bytes) (n : Int), ¬ (0 ≤ n ∧ n < 2 ^ 64) →
    pack mint owner n = .error .fieldRange
  amount : WordField 64 (fun data => (decode data).map (·.amount)) withAmount .wordRange
  rewrites : ∀ (data : Bytes) (n : Int), 72 ≤ data.length → 0 ≤ n → n < 2 ^ 64 →
    ∃ token written, decode data = .ok token ∧ withAmount data n = .ok written ∧
      decode written = .ok { token with amount := n.toNat }

/-- The layout of mints. The supply is in bytes 36 to 43, and data that ends before has none. -/
structure Mint.Lawful : Prop where
  packs : ∀ n d : Int, 0 ≤ n → n < 2 ^ 64 → 0 ≤ d → d < 256 →
    ∃ data, pack n d = .ok data ∧ data.length = 82 ∧ supply data = .ok n.toNat ∧
      data[44]? = some (UInt8.ofNat d.toNat)
  packsWords : ∀ n d : Int, ¬ (0 ≤ n ∧ n < 2 ^ 64) → pack n d = .error .fieldRange
  packsBytes : ∀ n d : Int, 0 ≤ n → n < 2 ^ 64 → ¬ (0 ≤ d ∧ d < 256) →
    pack n d = .error .byteRange
  supply : WordField 36 supply withSupply .fieldRange
  short : ∀ data : Bytes, data.length < 44 → Mint.supply data = .error .fieldBounds ∧
    ∀ n : Int, 0 ≤ n → n < 2 ^ 64 → withSupply data n = .error .fieldBounds

theorem layouts_lawful : TokenAccount.Lawful ∧ Mint.Lawful := by
  constructor
  · exact {
      packs := fun _ _ _ hmint howner hpos hlt => TokenAccount.decode_pack hmint howner hpos hlt
      packsWords := fun mint owner _ hout => TokenAccount.pack_error mint owner hout
      amount := TokenAccount.amount_field
      rewrites := fun _ _ hlong hpos hlt => TokenAccount.exists_decode_withAmount hlong hpos hlt }
  · exact {
      packs := fun _ _ hpos hlt hdpos hdlt => Mint.supply_pack hpos hlt hdpos hdlt
      packsWords := fun _ _ hout => Mint.pack_error hout
      packsBytes := fun _ _ hpos hlt hout => Mint.pack_error_decimals hpos hlt hout
      supply := Mint.supply_field
      short := fun _ hshort => ⟨guard_eq_error.2 (.inl ⟨hshort, rfl⟩),
        fun _ hpos hlt => Mint.withSupply_short hshort hpos hlt⟩ }

end Settlement
