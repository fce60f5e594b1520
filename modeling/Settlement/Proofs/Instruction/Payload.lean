import Settlement.Proofs.Instruction.Reader

/-! Payloads and their bytes. The data of an instruction holds a payload exactly if the payload's
written form stands in front. -/

namespace Settlement

open Cursor (Exact exact_u64 exact_u8 exact_string encodeString_ok)

theorem SplitTransfer.exact_reader :
    Exact SplitTransfer.reader (fun p bs => p.encode = .ok bs) := by
  have hfields : Exact SplitTransfer.reader _ :=
    exact_u64.field fun userId => exact_u64.field fun orgId => exact_u64.field fun totalAmount =>
      exact_u8.field fun userBump => exact_u8.field fun orgBump => exact_u8.field fun poolBump =>
        exact_string.last (SplitTransfer.mk userId orgId totalAmount userBump orgBump poolBump)
  refine hfields.congr fun p bs => ?_
  rw [encode, Outcome.bind_eq_ok]
  constructor
  · rintro ⟨_, _, ⟨_, _, ⟨_, _, ⟨_, _, ⟨_, _, ⟨_, text, ⟨_, htext, rfl⟩, rfl⟩, rfl⟩, rfl⟩,
      rfl⟩, rfl⟩, rfl⟩
    refine ⟨text, htext, ?_⟩
    simp [pure, Except.pure]
  · rintro ⟨text, htext, h⟩
    cases h
    refine ⟨_, _, ⟨_, _, ⟨_, _, ⟨_, _, ⟨_, _, ⟨_, text, ⟨_, htext, rfl⟩, rfl⟩, rfl⟩, rfl⟩,
      rfl⟩, rfl⟩, ?_⟩
    simp

theorem DirectBurn.exact_reader : Exact DirectBurn.reader (fun p bs => p.encode = .ok bs) := by
  have hfields : Exact DirectBurn.reader _ :=
    exact_u64.field fun amount => exact_string.last (DirectBurn.mk amount)
  refine hfields.congr fun p bs => ?_
  rw [encode, Outcome.bind_eq_ok]
  constructor
  · rintro ⟨_, text, ⟨_, htext, rfl⟩, rfl⟩
    exact ⟨text, htext, rfl⟩
  · rintro ⟨text, htext, h⟩
    cases h
    exact ⟨_, text, ⟨_, htext, rfl⟩, rfl⟩

theorem OrganizationBurn.exact_reader :
    Exact OrganizationBurn.reader (fun p bs => p.encode = .ok bs) := by
  have hfields : Exact OrganizationBurn.reader _ :=
    exact_u64.field fun orgId => exact_u64.field fun amount =>
      exact_string.last (OrganizationBurn.mk orgId amount)
  refine hfields.congr fun p bs => ?_
  rw [encode, Outcome.bind_eq_ok]
  constructor
  · rintro ⟨_, _, ⟨_, text, ⟨_, htext, rfl⟩, rfl⟩, rfl⟩
    refine ⟨text, htext, ?_⟩
    simp [pure, Except.pure]
  · rintro ⟨text, htext, h⟩
    cases h
    refine ⟨_, _, ⟨_, text, ⟨_, htext, rfl⟩, rfl⟩, ?_⟩
    simp

/-! A payload is read from its own form. -/

namespace Payload

def text : Payload → String
  | splitTransfer p => p.operationType
  | directBurn p => p.memo
  | organizationBurn p => p.memo

/-- The length of the text has room before it. -/
def Encodable (p : Payload) : Prop :=
  (Utf8.encode p.text).length < 2 ^ 32

theorem encode_ok (p : Payload) : (∃ form, p.encode = .ok form) ↔ p.Encodable := by
  have hopen (front : Bytes) (s : String) :
      (∃ form, (encodeString s >>= fun raw => (pure (front ++ raw) : Outcome Bytes)) = .ok form) ↔
        (Utf8.encode s).length < 2 ^ 32 := by
    simp only [Outcome.bind_eq_ok, encodeString_ok]
    constructor
    · rintro ⟨_, _, ⟨hlength, _⟩, _⟩
      exact hlength
    · intro hlength
      exact ⟨_, _, ⟨hlength, rfl⟩, rfl⟩
  cases p with
  | splitTransfer p => exact hopen _ _
  | directBurn p => exact hopen _ _
  | organizationBurn p => exact hopen _ _

variable {operation : Operation} {data : Bytes} {p : Payload}

theorem decode_eq_ok : decode operation data = .ok p ↔
    p.operation = operation ∧ ∃ form, p.encode = .ok form ∧ form <+: data := by
  have hmap {α : Type} (x : Except Refusal α) (f : α → Payload) :
      x.map f = .ok p ↔ ∃ a, x = .ok a ∧ f a = p := by
    cases x <;> simp [Except.map]
  cases operation with
  | splitTransfer =>
    rw [decode, hmap]
    simp only [SplitTransfer.decode, SplitTransfer.exact_reader.read_eq_ok]
    cases p <;> simp [Payload.operation, encode]
  | directBurn =>
    rw [decode, hmap]
    simp only [DirectBurn.decode, DirectBurn.exact_reader.read_eq_ok]
    cases p <;> simp [Payload.operation, encode]
  | organizationBurn =>
    rw [decode, hmap]
    simp only [OrganizationBurn.decode, OrganizationBurn.exact_reader.read_eq_ok]
    cases p <;> simp [Payload.operation, encode]

theorem decode_eq_error {r : Refusal} (h : decode operation data = .error r) :
    r.code = .inl .invalidInstructionData := by
  have hmap {α : Type} {x : Except Refusal α} {f : α → Payload} (hx : x.map f = .error r) :
      x = .error r := by
    cases x with
    | ok a => cases hx
    | error e => simpa [Except.map] using hx
  cases operation with
  | splitTransfer => exact SplitTransfer.exact_reader.read_eq_error (hmap h)
  | directBurn => exact DirectBurn.exact_reader.read_eq_error (hmap h)
  | organizationBurn => exact OrganizationBurn.exact_reader.read_eq_error (hmap h)

theorem exists_encode (h : decode operation data = .ok p) :
    p.operation = operation ∧ p.Encodable ∧ ∃ form, p.encode = .ok form ∧ form <+: data := by
  obtain ⟨hop, form, hform, hprefix⟩ := decode_eq_ok.1 h
  exact ⟨hop, p.encode_ok.1 ⟨form, hform⟩, form, hform, hprefix⟩

/-- Data that stops within the form of a payload holds no payload at all: another one would be
read from the whole form too. -/
theorem decode_part {form part : Bytes} (hform : p.encode = .ok form) (hpart : part <+: form)
    (hne : part ≠ form) : ∃ r, decode p.operation part = .error r := by
  cases hresult : decode p.operation part with
  | error r => exact ⟨r, rfl⟩
  | ok q =>
    obtain ⟨hop, form', hform', hprefix⟩ := decode_eq_ok.1 hresult
    have hp : decode p.operation form = .ok p :=
      decode_eq_ok.2 ⟨rfl, form, hform, List.prefix_rfl⟩
    have hq : decode p.operation form = .ok q :=
      decode_eq_ok.2 ⟨hop, form', hform', hprefix.trans hpart⟩
    have hsame : p = q := Except.ok.inj (hp.symm.trans hq)
    have hforms : form = form' := by
      rw [← hsame, hform] at hform'
      exact Except.ok.inj hform'
    rw [← hforms] at hprefix
    have hlength := hprefix.length_le
    exact absurd (hpart.eq_of_length_le hlength) hne

/-- A payload is read from data exactly if its form stands in front, so what follows the form does
not count and no part of it will do; and data is refused, always as invalid, exactly if it starts
with the form of no payload. -/
theorem decode_exact (operation : Operation) :
    (∀ p : Payload, p.operation = operation → p.Encodable → ∃ form, p.encode = .ok form ∧
      (∀ data, decode operation data = .ok p ↔ form <+: data) ∧
      (∀ rest, decode operation (form ++ rest) = .ok p) ∧
      ∀ part, part <+: form → part ≠ form → ∃ r, decode operation part = .error r) ∧
    ∀ data,
      ((∃ r, decode operation data = .error r) ↔
        ¬ ∃ p : Payload, p.operation = operation ∧ p.Encodable ∧
          ∃ form, p.encode = .ok form ∧ form <+: data) ∧
      ∀ r, decode operation data = .error r →
        r.signal = .host .invalidInstructionData (.text r.message) := by
  constructor
  · intro p hop hencodable
    obtain ⟨form, hform⟩ := p.encode_ok.2 hencodable
    have hdecode (data : Bytes) : decode operation data = .ok p ↔ form <+: data := by
      rw [decode_eq_ok]
      constructor
      · rintro ⟨_, form', hform', hprefix⟩
        rw [hform] at hform'
        cases hform'
        exact hprefix
      · intro hprefix
        exact ⟨hop, form, hform, hprefix⟩
    refine ⟨form, hform, hdecode, fun rest => (hdecode _).2 (List.prefix_append form rest), ?_⟩
    intro part hpart hne
    rw [← hop]
    exact decode_part hform hpart hne
  · intro data
    constructor
    · constructor
      · rintro ⟨r, hr⟩ ⟨p, hop, _, form, hform, hprefix⟩
        rw [decode_eq_ok.2 ⟨hop, form, hform, hprefix⟩] at hr
        cases hr
      · intro hnone
        cases hresult : decode operation data with
        | error r => exact ⟨r, rfl⟩
        | ok p =>
          exact absurd ⟨p, exists_encode hresult⟩ hnone
    · intro r hr
      rw [Refusal.signal, decode_eq_error hr]

theorem two_byte_memo_exact :
    (directBurn ⟨7, "é"⟩).Encodable ∧
      (directBurn ⟨7, "é"⟩).encode = .ok [7, 0, 0, 0, 0, 0, 0, 0, 2, 0, 0, 0, 0xC3, 0xA9] ∧
      ∀ data, decode .directBurn data = .ok (directBurn ⟨7, "é"⟩) ↔
        [7, 0, 0, 0, 0, 0, 0, 0, 2, 0, 0, 0, 0xC3, 0xA9] <+: data := by
  have hencodable : (directBurn ⟨7, "é"⟩).Encodable := by
    change (Utf8.encode "é").length < 2 ^ 32
    decide
  have hbytes : (directBurn ⟨7, "é"⟩).encode =
      .ok [7, 0, 0, 0, 0, 0, 0, 0, 2, 0, 0, 0, 0xC3, 0xA9] := by decide
  obtain ⟨form, hform, hdecode, _⟩ := (decode_exact .directBurn).1 _ rfl hencodable
  rw [hbytes] at hform
  cases hform
  exact ⟨hencodable, hbytes, hdecode⟩

end Payload
end Settlement
