import Settlement.Instruction.Payload
import Settlement.Proofs.Account.Field

/-! Readers that are exact. A value is read exactly where its written form stands in front, and
the reader goes on behind that form; all else is refused as invalid data. Each reader has one such
fact, and exact readers that follow each other are exact together. -/

namespace Settlement.Cursor

/-- The bytes from one place to a later one. -/
def Spans (c c' : Cursor) (bs : Bytes) : Prop :=
  c.rest = bs ++ c'.rest ∧ c'.offset = c.offset + bs.length

theorem spans_append {c c' : Cursor} {front back : Bytes} :
    Spans c c' (front ++ back) ↔ ∃ between, Spans c between front ∧ Spans between c' back := by
  constructor
  · rintro ⟨hrest, hoffset⟩
    have hafter : c'.offset = c.offset + front.length + back.length := by
      rw [hoffset, List.length_append, Nat.add_assoc]
    exact ⟨⟨c.offset + front.length, back ++ c'.rest⟩,
      ⟨by rw [hrest, List.append_assoc], rfl⟩, ⟨rfl, hafter⟩⟩
  · rintro ⟨between, ⟨hrest, hoffset⟩, hrest', hoffset'⟩
    constructor
    · rw [hrest, hrest', List.append_assoc]
    · rw [hoffset', hoffset, List.length_append, Nat.add_assoc]

theorem spans_skip (c : Cursor) (n : Nat) (h : n ≤ c.rest.length) :
    Spans c (c.skip n) (c.rest.take n) := by
  constructor
  · exact (List.take_append_drop n c.rest).symm
  · rw [List.length_take_of_le h]
    rfl

theorem Spans.take {c c' : Cursor} {bs : Bytes} (h : Spans c c' bs) :
    c.rest.take bs.length = bs := by
  rw [h.1, List.take_left]

theorem Spans.eq_skip {c c' : Cursor} {bs : Bytes} (h : Spans c c' bs) :
    c' = c.skip bs.length := by
  have hrest : c.rest.drop bs.length = c'.rest := by rw [h.1, List.drop_left]
  rw [skip, hrest, ← h.2]

theorem Spans.length_le {c c' : Cursor} {bs : Bytes} (h : Spans c c' bs) :
    bs.length ≤ c.rest.length := by
  rw [h.1, List.length_append]
  omega

structure Exact {α : Type} (reader : Reader α) (form : α → Bytes → Prop) : Prop where
  reads : ∀ {c c' : Cursor} {a : α}, reader c = .ok (a, c') ↔ ∃ bs, form a bs ∧ Spans c c' bs
  refuses : ∀ {c : Cursor} {r : Refusal}, reader c = .error r →
    r.code = .inl .invalidInstructionData

variable {α β : Type}

theorem Exact.congr {reader : Reader α} {form form' : α → Bytes → Prop} (h : Exact reader form)
    (hform : ∀ a bs, form a bs ↔ form' a bs) : Exact reader form' := by
  have hsame : form = form' := funext fun a => funext fun bs => propext (hform a bs)
  rw [← hsame]
  exact h

/-- A field of one form is read, and what follows it may depend on it. -/
theorem Exact.field {reader : Reader α} {next : α → Reader β} {write : α → Bytes}
    {form : α → β → Bytes → Prop} (h : Exact reader (fun a bs => bs = write a))
    (hnext : ∀ a, Exact (next a) (form a)) :
    Exact (reader >>= next) (fun b bs => ∃ a back, form a b back ∧ bs = write a ++ back) where
  reads := by
    intro c c' b
    have hopen : (reader >>= next) c = reader c >>= fun q => next q.1 q.2 := rfl
    rw [hopen, Outcome.bind_eq_ok]
    constructor
    · rintro ⟨⟨a, between⟩, hfirst, hthen⟩
      obtain ⟨_, rfl, hbefore⟩ := h.reads.1 hfirst
      obtain ⟨back, hback, hafter⟩ := (hnext a).reads.1 hthen
      exact ⟨write a ++ back, ⟨a, back, hback, rfl⟩, spans_append.2 ⟨between, hbefore, hafter⟩⟩
    · rintro ⟨_, ⟨a, back, hback, rfl⟩, hspan⟩
      obtain ⟨between, hbefore, hafter⟩ := spans_append.1 hspan
      exact ⟨(a, between), h.reads.2 ⟨write a, rfl, hbefore⟩,
        (hnext a).reads.2 ⟨back, hback, hafter⟩⟩
  refuses := by
    intro c r hr
    have hopen : (reader >>= next) c = reader c >>= fun q => next q.1 q.2 := rfl
    rw [hopen, Outcome.bind_eq_error] at hr
    rcases hr with hfirst | ⟨⟨a, between⟩, _, hthen⟩
    · exact h.refuses hfirst
    · exact (hnext a).refuses hthen

/-- The last field is read, and the whole is put together from it. -/
theorem Exact.last {reader : Reader α} {form : α → Bytes → Prop} (h : Exact reader form)
    (whole : α → β) :
    Exact (reader >>= fun a => pure (whole a)) (fun b bs => ∃ a, form a bs ∧ b = whole a) where
  reads := by
    intro c c' b
    have hopen : (reader >>= fun a => pure (whole a)) c =
        reader c >>= fun q => .ok (whole q.1, q.2) := rfl
    rw [hopen, Outcome.bind_eq_ok]
    constructor
    · rintro ⟨⟨a, after⟩, hread, heq⟩
      cases heq
      obtain ⟨bs, hform, hspan⟩ := h.reads.1 hread
      exact ⟨bs, ⟨a, hform, rfl⟩, hspan⟩
    · rintro ⟨bs, ⟨a, hform, rfl⟩, hspan⟩
      exact ⟨(a, c'), h.reads.2 ⟨bs, hform, hspan⟩, rfl⟩
  refuses := by
    intro c r hr
    have hopen : (reader >>= fun a => pure (whole a)) c =
        reader c >>= fun q => .ok (whole q.1, q.2) := rfl
    rw [hopen, Outcome.bind_eq_error] at hr
    rcases hr with hread | ⟨_, _, hpure⟩
    · exact h.refuses hread
    · cases hpure

/-- What an exact reader finds at the front of data. -/
theorem Exact.read_eq_ok {reader : Reader α} {form : α → Bytes → Prop} (h : Exact reader form)
    {data : Bytes} {a : α} : read reader data = .ok a ↔ ∃ bs, form a bs ∧ bs <+: data := by
  have hopen : read reader data = .ok a ↔ ∃ c', reader (start data) = .ok (a, c') := by
    rw [read]
    cases hresult : reader (start data) with
    | error r => simp [Except.map]
    | ok q => simp [Except.map, Prod.ext_iff]
  rw [hopen]
  constructor
  · rintro ⟨c', hread⟩
    obtain ⟨bs, hform, hspan⟩ := h.reads.1 hread
    exact ⟨bs, hform, c'.rest, hspan.1.symm⟩
  · rintro ⟨bs, hform, rest, rfl⟩
    exact ⟨⟨0 + bs.length, rest⟩, h.reads.2 ⟨bs, hform, rfl, rfl⟩⟩

theorem Exact.read_eq_error {reader : Reader α} {form : α → Bytes → Prop} (h : Exact reader form)
    {data : Bytes} {r : Refusal} (hr : read reader data = .error r) :
    r.code = .inl .invalidInstructionData := by
  rw [read] at hr
  cases hresult : reader (start data) with
  | ok q => simp [hresult, Except.map] at hr
  | error r' =>
    simp only [hresult, Except.map, Except.error.injEq] at hr
    exact hr ▸ h.refuses hresult

theorem length_encodeU64 (n : UInt64) : (encodeU64 n).length = 8 := Bytes.length_ofNat 8 _

theorem ofNat_value_encodeU64 (n : UInt64) : UInt64.ofNat (Bytes.value (encodeU64 n)) = n := by
  have hvalue : Bytes.value (encodeU64 n) = n.toNat := Bytes.value_ofNat n.toNat_lt
  rw [hvalue, UInt64.ofNat_toNat]

theorem encodeU64_ofNat_value {bs : Bytes} (h : bs.length = 8) :
    encodeU64 (UInt64.ofNat (Bytes.value bs)) = bs := by
  have hlt : Bytes.value bs < 2 ^ 64 := by simpa [h] using Bytes.value_lt bs
  rw [encodeU64, UInt64.toNat_ofNat_of_lt' hlt, ← h, Bytes.ofNat_value]

theorem exact_u64 : Exact u64 (fun n bs => bs = encodeU64 n) where
  reads := by
    intro c c' n
    rw [u64]
    by_cases hshort : c.rest.length < 8
    · simp only [hshort, if_true, reduceCtorEq, false_iff]
      rintro ⟨_, rfl, hspan⟩
      have hle := hspan.length_le
      rw [length_encodeU64] at hle
      omega
    · have hlength : (c.rest.take 8).length = 8 := List.length_take_of_le (by omega)
      rw [if_neg hshort]
      constructor
      · intro h
        cases h
        exact ⟨_, (encodeU64_ofNat_value hlength).symm, spans_skip c 8 (by omega)⟩
      · rintro ⟨_, rfl, hspan⟩
        have htake := hspan.take
        have hskip := hspan.eq_skip
        rw [length_encodeU64] at htake hskip
        rw [htake, ofNat_value_encodeU64, hskip]
  refuses := by
    intro c r hr
    rw [u64] at hr
    split at hr
    · cases hr
      rfl
    · cases hr

theorem exact_u8 : Exact u8 (fun b bs => bs = [b]) where
  reads := by
    intro c c' b
    obtain ⟨offset, rest⟩ := c
    cases rest with
    | nil => simp [u8, Spans]
    | cons b' rest =>
      constructor
      · intro h
        cases h
        exact ⟨[b], rfl, rfl, rfl⟩
      · rintro ⟨_, rfl, hspan⟩
        have hskip := hspan.eq_skip
        obtain ⟨rfl, -⟩ := List.cons.inj hspan.1
        rw [hskip]
        rfl
  refuses := by
    intro c r hr
    rw [u8] at hr
    split at hr
    · cases hr
      rfl
    · cases hr

/-- A string is written if its length in UTF-8 has room in four bytes. -/
theorem encodeString_ok {s : String} {bs : Bytes} : encodeString s = .ok bs ↔
    (Utf8.encode s).length < 2 ^ 32 ∧
      bs = Bytes.ofNat 4 (Utf8.encode s).length ++ Utf8.encode s := by
  rw [encodeString, Outcome.bind_eq_ok]
  constructor
  · rintro ⟨front, hfront, h⟩
    obtain ⟨⟨_, hlt⟩, rfl⟩ := Field.unsigned_ok.1 hfront
    cases h
    exact ⟨by omega, rfl⟩
  · rintro ⟨hlt, rfl⟩
    exact ⟨_, Field.unsigned_ok.2 ⟨⟨by omega, by omega⟩, rfl⟩, rfl⟩

theorem exact_string : Exact string (fun s bs => encodeString s = .ok bs) where
  reads := by
    intro c c' s
    simp only [encodeString_ok]
    rw [string]
    constructor
    · intro h
      obtain ⟨hfour, h⟩ := Outcome.guard_eq_ok.1 h
      obtain ⟨hbody, h⟩ := Outcome.guard_eq_ok.1 h
      split at h
      · next s' hs =>
        have hraw := Utf8.decode?_eq_some_iff.1 hs
        cases h
        have hlength : (Utf8.encode s).length = Bytes.value (c.rest.take 4) := by
          rw [← hraw, List.length_take_of_le (by omega)]
        have hfront : (c.rest.take 4).length = 4 := List.length_take_of_le (by omega)
        have hlt := Bytes.value_lt (c.rest.take 4)
        have hbytes := Bytes.ofNat_value (c.rest.take 4)
        rw [hfront] at hlt hbytes
        rw [List.length_drop] at hbody
        refine ⟨_, ⟨by omega, rfl⟩, ?_⟩
        rw [hlength, hbytes, ← hraw, ← List.take_add]
        exact spans_skip c _ (by omega)
      · cases h
    · rintro ⟨_, ⟨hlt, rfl⟩, hspan⟩
      have hrest := hspan.1
      have hskip := hspan.eq_skip
      have hle := hspan.length_le
      have htake : c.rest.take 4 = Bytes.ofNat 4 (Utf8.encode s).length := by
        rw [hrest, List.append_assoc]
        exact List.take_left' (Bytes.length_ofNat 4 _)
      have hdrop : c.rest.drop 4 = Utf8.encode s ++ c'.rest := by
        rw [hrest, List.append_assoc]
        exact List.drop_left' (Bytes.length_ofNat 4 _)
      have hvalue : Bytes.value (Bytes.ofNat 4 (Utf8.encode s).length) = (Utf8.encode s).length :=
        Bytes.value_ofNat hlt
      rw [List.length_append, Bytes.length_ofNat] at hskip hle
      simp only [htake, hdrop, hvalue, List.take_left, Utf8.decode?_encode, hskip]
      rw [if_neg (by omega), if_neg (by rw [List.length_append]; omega)]
  refuses := by
    intro c r hr
    rw [string] at hr
    rcases Outcome.guard_eq_error.1 hr with ⟨_, rfl⟩ | ⟨_, hr⟩
    · rfl
    · rcases Outcome.guard_eq_error.1 hr with ⟨_, rfl⟩ | ⟨_, hr⟩
      · rfl
      · split at hr
        · cases hr
        · cases hr
          rfl

end Settlement.Cursor
