import Mathlib.Data.List.Chain
import Settlement.Json.Printer
import Settlement.Json.Reader

/-! Text in a document. What is written is read back unless a high surrogate stands before a low
one, and no text that is read holds such a pair. -/

namespace Settlement.Json

/-- An escaped low surrogate at the start of what is read. -/
def LowFirst (cs : List Char) : Prop :=
  ∃ e f g h rest y, cs = '\\' :: 'u' :: e :: f :: g :: h :: rest ∧ hexUnit? e f g h = some y ∧
    isLowSurrogate y.val = true

/-- No high surrogate of a text stands before a low one. -/
def Joined (t : Text) : Prop :=
  t.IsChain fun c d => isHighSurrogate c.val = true → isLowSurrogate d.val = false

/-- What is read of a text that one more code point stands before. -/
def precede (c : CodePoint) (r : Except ReadFault (Text × List Char)) :
    Except ReadFault (Text × List Char) :=
  do
    let (t, rest) ← r
    return (c :: t, rest)

variable {a b c d : Char} {x y : Fin 0x10000} {cs rest : List Char} {t : Text}

theorem precede_eq_ok {p : CodePoint} {r : Except ReadFault (Text × List Char)} :
    precede p r = .ok (t, rest) ↔ ∃ t', r = .ok (t', rest) ∧ t = p :: t' := by
  cases r with
  | error e => simp [precede, bind, Except.bind]
  | ok s =>
    obtain ⟨t', rest'⟩ := s
    simp only [precede, bind, Except.bind, pure, Except.pure, Except.ok.injEq, Prod.mk.injEq]
    constructor
    · rintro ⟨rfl, rfl⟩
      exact ⟨t', ⟨rfl, rfl⟩, rfl⟩
    · rintro ⟨_, ⟨rfl, rfl⟩, rfl⟩
      exact ⟨rfl, rfl⟩

/-! Reading. -/

theorem stringBody_quote : stringBody ('"' :: cs) = .ok ([], cs) := by
  rw [stringBody]

theorem stringBody_badUnit (hx : hexUnit? a b c d = none) :
    stringBody ('\\' :: 'u' :: a :: b :: c :: d :: cs) = .error .malformed := by
  rw [stringBody.eq_def]
  split
  · next h => cases h
  · next h => cases h
  · next h =>
    cases h
    simp only [hx]
  · next h =>
    cases h
    simp only [hx]
  · next h1 h2 h =>
    cases h
    exact (h2 a b c d cs rfl rfl).elim
  · next h1 h2 h3 h4 h =>
    cases h
    exact (h4 'u' _ rfl rfl).elim

theorem stringBody_unit (hx : hexUnit? a b c d = some x)
    (hlone : isHighSurrogate x.val = true → ¬ LowFirst cs) :
    stringBody ('\\' :: 'u' :: a :: b :: c :: d :: cs) =
      precede (x.castLE (by decide)) (stringBody cs) := by
  rw [stringBody.eq_def]
  split
  · next h => cases h
  · next h => cases h
  · next e f g k rest h =>
    cases h
    cases hy : hexUnit? e f g k with
    | none =>
      simp only [hx, stringBody_badUnit hy]
      rfl
    | some y =>
      have hpair : (isHighSurrogate x.val && isLowSurrogate y.val) = false := by
        rw [Bool.and_eq_false_imp]
        intro hhigh
        exact Bool.eq_false_iff.2 fun hlow => hlone hhigh ⟨e, f, g, k, rest, y, rfl, hy, hlow⟩
      simp only [hx, hpair, Bool.false_eq_true, if_false]
      rfl
  · next h =>
    cases h
    simp only [hx]
    rfl
  · next h1 h2 h =>
    cases h
    exact (h2 a b c d cs rfl rfl).elim
  · next h1 h2 h3 h4 h =>
    cases h
    exact (h4 'u' _ rfl rfl).elim

theorem stringBody_pair {e f g h : Char} (hx : hexUnit? a b c d = some x)
    (hy : hexUnit? e f g h = some y) (hhigh : isHighSurrogate x.val = true)
    (hlow : isLowSurrogate y.val = true) :
    stringBody ('\\' :: 'u' :: a :: b :: c :: d :: '\\' :: 'u' :: e :: f :: g :: h :: cs) =
      precede (joined x.val y.val) (stringBody cs) := by
  rw [stringBody]
  simp only [hx, hy, hhigh, hlow, Bool.and_self, if_true]
  rfl

theorem stringBody_escape {e : Char} (h : plainEscape? e = some c) :
    stringBody ('\\' :: e :: cs) = precede (CodePoint.ofChar c) (stringBody cs) := by
  have hu : e ≠ 'u' := by
    rintro rfl
    cases h
  rw [stringBody]
  · simp only [h]
    rfl
  · exact fun _ _ _ _ _ _ _ _ _ he _ => hu he
  · exact fun _ _ _ _ _ he _ => hu he

theorem stringBody_plain (hquote : c ≠ '"') (hescape : c ≠ '\\') (hcontrol : ' ' ≤ c) :
    stringBody (c :: cs) = precede (CodePoint.ofChar c) (stringBody cs) := by
  rw [stringBody.eq_def]
  split
  · next h => cases h
  · next h =>
    cases h
    exact absurd rfl hquote
  · next h =>
    cases h
    exact absurd rfl hescape
  · next h =>
    cases h
    exact absurd rfl hescape
  · next h =>
    cases h
    exact absurd rfl hescape
  · next h =>
    cases h
    have hnot : ¬ (c = '\\' ∨ c < ' ') := by
      rintro (h | h)
      · exact hescape h
      · exact absurd hcontrol (Char.not_le.2 h)
    simp only [hnot, if_false]
    rfl

/-! Surrogates. No character is one, nor is what a pair stands for. -/

theorem ofChar_not_surrogate (c : Char) :
    isHighSurrogate (CodePoint.ofChar c).val = false ∧
      isLowSurrogate (CodePoint.ofChar c).val = false := by
  have hvalid : c.toNat < 0xd800 ∨ 0xdfff < c.toNat ∧ c.toNat < 0x110000 := c.valid
  have hval : (CodePoint.ofChar c).val = c.toNat := rfl
  simp only [isHighSurrogate, isLowSurrogate, hval, Bool.and_eq_false_iff, decide_eq_false_iff_not]
  omega

theorem joined_ofChars (cs : List Char) : Joined (Text.ofChars cs) := by
  induction cs with
  | nil => exact List.isChain_nil
  | cons c cs ih =>
    refine List.isChain_cons.2 ⟨fun _ _ hhigh => ?_, ih⟩
    rw [(ofChar_not_surrogate c).1] at hhigh
    cases hhigh

theorem joined_val (hhigh : isHighSurrogate x.val = true) (hlow : isLowSurrogate y.val = true) :
    (joined x.val y.val).val = 0x10000 + (x.val - 0xd800) * 0x400 + (y.val - 0xdc00) := by
  simp only [isHighSurrogate, isLowSurrogate, Bool.and_eq_true, decide_eq_true_eq] at hhigh hlow
  simp only [joined, Fin.ofNat]
  omega

theorem joined_not_surrogate (hhigh : isHighSurrogate x.val = true)
    (hlow : isLowSurrogate y.val = true) :
    isHighSurrogate (joined x.val y.val).val = false ∧
      isLowSurrogate (joined x.val y.val).val = false := by
  rw [joined_val hhigh hlow]
  simp only [isHighSurrogate, isLowSurrogate, Bool.and_eq_false_iff, decide_eq_false_iff_not]
  omega

/-! What is read holds no pair: the second half would have been read with the first. -/

/-- `p` can be read off the front of `cs`, and leaves `cs'`. A low surrogate is read of an escape,
and after a high one there is none of a low one. -/
structure Reads (cs : List Char) (p : CodePoint) (cs' : List Char) : Prop where
  shorter : cs'.length < cs.length
  low : isLowSurrogate p.val = true → LowFirst cs
  high : isHighSurrogate p.val = true → ¬ LowFirst cs'

theorem Reads.of_not_surrogate {p : CodePoint} {cs' : List Char} (hshorter : cs'.length < cs.length)
    (h : isHighSurrogate p.val = false ∧ isLowSurrogate p.val = false) : Reads cs p cs' where
  shorter := hshorter
  low hlow := by
    rw [h.2] at hlow
    cases hlow
  high hhigh := by
    rw [h.1] at hhigh
    cases hhigh

theorem stringBody_step (h : stringBody cs = .ok (t, rest)) :
    t = [] ∧ cs = '"' :: rest ∨
      ∃ p t' cs', t = p :: t' ∧ Reads cs p cs' ∧ stringBody cs' = .ok (t', rest) := by
  rw [stringBody.eq_def] at h
  split at h
  · cases h
  · cases h
    exact .inl ⟨rfl, rfl⟩
  · next a b c d e f g k cs =>
    split at h
    · next x y hx hy =>
      split at h
      · next hpair =>
        rw [Bool.and_eq_true] at hpair
        obtain ⟨t', hcs, rfl⟩ := precede_eq_ok.1 h
        have hshorter : cs.length < cs.length + 12 := by omega
        exact .inr ⟨_, t', cs, rfl,
          .of_not_surrogate hshorter (joined_not_surrogate hpair.1 hpair.2), hcs⟩
      · next hpair =>
        obtain ⟨t', hcs, rfl⟩ := precede_eq_ok.1 h
        refine .inr ⟨_, t', _, rfl, ⟨by simp only [List.length_cons]; omega,
          fun hlow => ⟨a, b, c, d, _, x, rfl, hx, hlow⟩, ?_⟩, hcs⟩
        rintro hhigh ⟨_, _, _, _, _, y', heq, hy', hlow⟩
        cases heq
        rw [hy] at hy'
        cases hy'
        exact hpair (Bool.and_eq_true_iff.2 ⟨hhigh, hlow⟩)
    · cases h
  · next a b c d cs hnone =>
    split at h
    · next x hx =>
      obtain ⟨t', hcs, rfl⟩ := precede_eq_ok.1 h
      refine .inr ⟨_, t', cs, rfl, ⟨by simp only [List.length_cons]; omega,
        fun hlow => ⟨a, b, c, d, _, x, rfl, hx, hlow⟩, ?_⟩, hcs⟩
      rintro - ⟨e, f, g, k, rest', -, rfl, -⟩
      exact hnone e f g k rest' rfl
    · cases h
  · next e cs _ _ =>
    split at h
    · next c _ =>
      obtain ⟨t', hcs, rfl⟩ := precede_eq_ok.1 h
      have hshorter : cs.length < cs.length + 2 := by omega
      exact .inr ⟨_, t', cs, rfl, .of_not_surrogate hshorter (ofChar_not_surrogate c), hcs⟩
    · cases h
  · next c cs _ _ _ _ =>
    split at h
    · cases h
    · obtain ⟨t', hcs, rfl⟩ := precede_eq_ok.1 h
      exact .inr ⟨_, t', cs, rfl,
        .of_not_surrogate (Nat.lt_succ_self _) (ofChar_not_surrogate c), hcs⟩

theorem stringBody_joined (h : stringBody cs = .ok (t, rest)) :
    Joined t ∧ ∀ p ∈ t.head?, isLowSurrogate p.val = true → LowFirst cs := by
  -- on the length of what is left to read, since a code point takes up to twelve characters
  induction hn : cs.length using Nat.strong_induction_on generalizing cs t with
  | _ n ih =>
    rcases stringBody_step h with ⟨rfl, -⟩ | ⟨p, t', cs', rfl, hp, hcs⟩
    · exact ⟨List.isChain_nil, nofun⟩
    · obtain ⟨hjoined, hfirst⟩ := ih cs'.length (hn ▸ hp.shorter) hcs rfl
      refine ⟨List.isChain_cons.2 ⟨fun q hq hhigh => ?_, hjoined⟩, ?_⟩
      · exact Bool.eq_false_iff.2 fun hlow => hp.high hhigh (hfirst q hq hlow)
      · intro q hq
        cases hq
        exact hp.low

/-! Writing. -/

/-- The ways to write a code point. -/
inductive Escaped : CodePoint → List Char → Prop
  | short {e c : Char} (h : plainEscape? e = some c) : Escaped (CodePoint.ofChar c) ['\\', e]
  | plain {c : Char} (hquote : c ≠ '"') (hescape : c ≠ '\\') (hcontrol : ' ' ≤ c) :
      Escaped (CodePoint.ofChar c) [c]
  | unit {a b c d : Char} {x : Fin 0x10000} (hx : hexUnit? a b c d = some x) :
      Escaped (x.castLE (by decide)) ['\\', 'u', a, b, c, d]
  | pair {a b c d e f g h : Char} {x y : Fin 0x10000} (hx : hexUnit? a b c d = some x)
      (hy : hexUnit? e f g h = some y) (hhigh : isHighSurrogate x.val = true)
      (hlow : isLowSurrogate y.val = true) :
      Escaped (joined x.val y.val) ['\\', 'u', a, b, c, d, '\\', 'u', e, f, g, h]

theorem hexUnit?_digits {n : Nat} (h : n < 0x10000) :
    ∃ a b c d, Hex.digits 4 n = [a, b, c, d] ∧ hexUnit? a b c d = some ⟨n, h⟩ := by
  refine ⟨_, _, _, _, rfl, ?_⟩
  simp only [hexUnit?, Hex.digitValue?_digit (Nat.mod_lt _ (show 0 < 16 by omega)),
    Option.bind_eq_bind, Option.bind_some, Option.pure_def, Option.some.injEq]
  apply Fin.ext
  simp only [Fin.ofNat]
  omega

theorem Escaped.short_of_val {p : CodePoint} {e c : Char} (hp : p.val = c.toNat)
    (h : plainEscape? e = some c) : Escaped p ['\\', e] := by
  have hc : CodePoint.ofChar c = p := Fin.ext hp.symm
  exact hc ▸ .short h

theorem Escaped.plain_of_val {p : CodePoint} (hquote : p.val ≠ '"'.toNat)
    (hescape : p.val ≠ '\\'.toNat) (hcontrol : ' '.toNat ≤ p.val) (hascii : p.val < 0x7f) :
    Escaped p [Char.ofNat p.val] := by
  have hnat : (Char.ofNat p.val).toNat = p.val := by
    rw [Char.ofNat, dif_pos (show p.val.isValidChar from .inl (by omega))]
    rfl
  have hne (c : Char) (h : p.val ≠ c.toNat) : Char.ofNat p.val ≠ c :=
    fun hc => h (by rw [← hc, hnat])
  have hle : ' '.toNat ≤ (Char.ofNat p.val).toNat := by rwa [hnat]
  have hp : CodePoint.ofChar (Char.ofNat p.val) = p := Fin.ext hnat
  have hplain := Escaped.plain (hne _ hquote) (hne _ hescape) (Char.le_def.2 hle)
  rwa [hp] at hplain

theorem Escaped.unit_of_val {p : CodePoint} (h : p.val < 0x10000) :
    Escaped p (unitEscape p.val) := by
  obtain ⟨a, b, c, d, hdigits, hx⟩ := hexUnit?_digits h
  rw [unitEscape, hdigits]
  exact .unit hx

theorem Escaped.pair_of_val {p : CodePoint} (h : ¬ p.val < 0x10000) :
    Escaped p (unitEscape (0xd800 + (p.val - 0x10000) / 0x400) ++
      unitEscape (0xdc00 + (p.val - 0x10000) % 0x400)) := by
  have hlt := p.isLt
  obtain ⟨a, b, c, d, hdigits, hx⟩ :=
    hexUnit?_digits (n := 0xd800 + (p.val - 0x10000) / 0x400) (by omega)
  obtain ⟨e, f, g, k, hdigits', hy⟩ :=
    hexUnit?_digits (n := 0xdc00 + (p.val - 0x10000) % 0x400) (by omega)
  have hhigh : isHighSurrogate (0xd800 + (p.val - 0x10000) / 0x400) = true := by
    simp only [isHighSurrogate, Bool.and_eq_true, decide_eq_true_eq]
    omega
  have hlow : isLowSurrogate (0xdc00 + (p.val - 0x10000) % 0x400) = true := by
    simp only [isLowSurrogate, Bool.and_eq_true, decide_eq_true_eq]
    omega
  have hp : joined (0xd800 + (p.val - 0x10000) / 0x400)
      (0xdc00 + (p.val - 0x10000) % 0x400) = p := by
    apply Fin.ext
    rw [joined, Fin.ofNat]
    simp only
    omega
  have hpair := Escaped.pair hx hy hhigh hlow
  rw [hp] at hpair
  rw [unitEscape, unitEscape, hdigits, hdigits']
  exact hpair

theorem escapePoint_escaped (p : CodePoint) : Escaped p (escapePoint p) := by
  simp only [escapePoint]
  split
  · next h => exact .short_of_val (c := '"') h rfl
  split
  · next h => exact .short_of_val (c := '\\') h rfl
  split
  · next h => exact .short_of_val (c := '\x08') h rfl
  split
  · next h => exact .short_of_val (c := '\x0c') h rfl
  split
  · next h => exact .short_of_val (c := '\n') h rfl
  split
  · next h => exact .short_of_val (c := '\r') h rfl
  split
  · next h => exact .short_of_val (c := '\t') h rfl
  split
  · next hquote hescape _ _ _ _ _ h => exact .plain_of_val hquote hescape h.1 h.2
  split
  · next h => exact .unit_of_val h
  · next h => exact .pair_of_val h

theorem stringBody_escaped {p : CodePoint} {es : List Char} (h : Escaped p es)
    (hlone : isHighSurrogate p.val = true → ¬ LowFirst cs) :
    stringBody (es ++ cs) = precede p (stringBody cs) := by
  cases h with
  | short h => exact stringBody_escape h
  | plain hquote hescape hcontrol => exact stringBody_plain hquote hescape hcontrol
  | unit hx => exact stringBody_unit hx hlone
  | pair hx hy hhigh hlow => exact stringBody_pair hx hy hhigh hlow

theorem lowFirst_escaped {p : CodePoint} {es : List Char} (h : Escaped p es)
    (hfirst : LowFirst (es ++ cs)) : isLowSurrogate p.val = true := by
  obtain ⟨_, _, _, _, _, z, heq, hz, hlowz⟩ := hfirst
  cases h with
  | short h =>
    cases heq
    cases h
  | plain hquote hescape hcontrol => exact absurd (List.cons.inj heq).1 hescape
  | unit hx =>
    cases heq
    rw [hx] at hz
    cases hz
    exact hlowz
  | pair hx hy hhigh hlow =>
    cases heq
    rw [hx] at hz
    cases hz
    simp only [isHighSurrogate, isLowSurrogate, Bool.and_eq_true, decide_eq_true_eq] at hhigh hlowz
    omega

theorem stringBody_flatMap (hjoined : Joined t) (rest : List Char) :
    stringBody (t.flatMap escapePoint ++ '"' :: rest) = .ok (t, rest) := by
  induction t with
  | nil => exact stringBody_quote
  | cons p t ih =>
    obtain ⟨hfirst, hjoined⟩ := List.isChain_cons.1 hjoined
    have hlone : isHighSurrogate p.val = true →
        ¬ LowFirst (t.flatMap escapePoint ++ '"' :: rest) := by
      intro hhigh hlowFirst
      cases t with
      | nil =>
        obtain ⟨_, _, _, _, _, _, heq, -⟩ := hlowFirst
        cases heq
      | cons q t =>
        rw [List.flatMap_cons, List.append_assoc] at hlowFirst
        have hq := hfirst q rfl hhigh
        rw [lowFirst_escaped (escapePoint_escaped q) hlowFirst] at hq
        cases hq
    rw [List.flatMap_cons, List.append_assoc, stringBody_escaped (escapePoint_escaped p) hlone,
      ih hjoined]
    rfl

end Settlement.Json
