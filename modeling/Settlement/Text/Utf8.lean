import Settlement.Bytes.Word

/-! The UTF-8 encoding. Each string has one encoding, and all other bytes have no string. -/

namespace Settlement.Utf8

def encode (s : String) : Bytes := s.toByteArray.data.toList

def decode? (bs : Bytes) : Option String := String.fromUTF8? ⟨bs.toArray⟩

theorem decode?_eq_some_iff {bs : Bytes} {s : String} : decode? bs = some s ↔ bs = encode s := by
  constructor
  · intro h
    rw [decode?, String.fromUTF8?] at h
    split at h
    · cases h
      rfl
    · cases h
  · rintro rfl
    have hs : (⟨(encode s).toArray⟩ : ByteArray) = s.toByteArray := by simp [encode]
    rw [decode?, hs, String.fromUTF8?, dif_pos s.isValidUTF8]
    rfl

theorem decode?_encode (s : String) : decode? (encode s) = some s :=
  decode?_eq_some_iff.2 rfl

theorem encode_inj {s t : String} (h : encode s = encode t) : s = t := by
  have := decode?_encode s
  rw [h, decode?_encode] at this
  exact (Option.some.inj this).symm

end Settlement.Utf8
