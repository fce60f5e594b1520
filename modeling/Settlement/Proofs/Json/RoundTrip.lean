import Settlement.Proofs.Json.Readable

/-! A document that is written reads as the value again, on one line or on many. -/

namespace Settlement.Json

open Value

/-! Numbers. -/

/-- No number goes on here. -/
def Ends (rest : List Char) : Prop :=
  ∀ c ∈ rest.head?, isDigit c = false ∧ c ≠ '.' ∧ c ≠ 'e' ∧ c ≠ 'E'

theorem fraction_of_ends {rest : List Char} (h : Ends rest) : fraction rest = ([], rest) := by
  rw [fraction.eq_def]
  split
  · exact absurd rfl (h '.' rfl).2.1
  · rfl

theorem power_of_ends {rest : List Char} (h : Ends rest) : power rest = (none, rest) := by
  rw [power.eq_def]
  split
  · next c rest =>
    obtain ⟨-, -, he, hE⟩ := h c rfl
    simp only [he, hE, or_self, if_false]
  · rfl

theorem takeWhile_of_ends {rest : List Char} (h : Ends rest) : rest.takeWhile isDigit = [] := by
  cases rest with
  | nil => rfl
  | cons c rest => simp only [List.takeWhile_cons, (h c rfl).1, Bool.false_eq_true, if_false]

variable {n : Nat} {rest : List Char}

theorem isDigit_of_mem_toDigits {c : Char} (h : c ∈ Nat.toDigits 10 n) : isDigit c = true :=
  Nat.isDigit_of_mem_toDigits (by omega) (by omega) h

theorem digitsValue_toDigits : digitsValue (Nat.toDigits 10 n) = n :=
  Nat.ofDigitChars_toDigits (by omega) (by omega)

/-- Only zero has a zero in front. -/
theorem toDigits_zero {ds : List Char} (h : Nat.toDigits 10 n = '0' :: ds) : ds = [] := by
  by_contra hds
  have hpos : 0 < ds.length := List.length_pos_iff.2 hds
  have hdigits : ∀ c ∈ ds, isDigit c = true :=
    fun c hc => isDigit_of_mem_toDigits (h ▸ List.mem_cons_of_mem _ hc)
  have hvalue : digitsValue ds = n := by
    rw [← digitsValue_toDigits (n := n), h]
    rfl
  -- without the zero the digits give the same number, so they are not one digit too few
  have hlength := (Nat.length_toDigits_le_iff (by omega) hpos).2 (hvalue ▸ digitsValue_lt hdigits)
  rw [h, List.length_cons] at hlength
  omega

theorem wholeDigits_toDigits (h : Ends rest) :
    wholeDigits (Nat.toDigits 10 n ++ rest) = Nat.toDigits 10 n := by
  rw [wholeDigits.eq_def]
  split
  · next tail heq =>
    obtain ⟨c, ds, hds⟩ := List.exists_cons_of_ne_nil (Nat.toDigits_ne_nil (n := n) (b := 10))
    rw [hds, List.cons_append] at heq
    obtain ⟨rfl, -⟩ := List.cons.inj heq
    rw [hds, toDigits_zero hds]
  · rw [List.takeWhile_append_of_pos fun c hc => isDigit_of_mem_toDigits hc, takeWhile_of_ends h,
      List.append_nil]

theorem unsigned_toDigits (negative : Bool) (hn : n < 10 ^ Numeral.maxDigits) (h : Ends rest) :
    unsigned negative (Nat.toDigits 10 n ++ rest) =
      .ok (.int (Binary64.signed negative n), rest) := by
  have hlength : ¬ Numeral.maxDigits < (Nat.toDigits 10 n).length :=
    Nat.not_lt.2 ((Nat.length_toDigits_le_iff (by omega) (by decide)).2 hn)
  simp only [unsigned_eq, wholeDigits_toDigits h, Nat.toDigits_ne_nil, List.drop_left,
    fraction_of_ends h, power_of_ends h, hlength, digitsValue_toDigits, if_false, if_true,
    List.isEmpty_nil, Option.isNone_none, Bool.and_self]

theorem ofInt_cases (n : Int) : ∃ c ds, Nat.toDigits 10 n.natAbs = c :: ds ∧ isDigit c = true ∧
    (ofInt n = '-' :: c :: ds ∧ Binary64.signed true n.natAbs = n ∨
      ofInt n = c :: ds ∧ Binary64.signed false n.natAbs = n) := by
  obtain ⟨c, ds, hds⟩ := List.exists_cons_of_ne_nil (Nat.toDigits_ne_nil (n := n.natAbs) (b := 10))
  refine ⟨c, ds, hds, isDigit_of_mem_toDigits (hds ▸ List.mem_cons_self), ?_⟩
  rw [ofInt, Int.toString_eq_repr, Int.repr_eq_if]
  split
  · have hnat : n.toNat = n.natAbs := by omega
    rw [Nat.toList_repr, hnat, hds]
    refine .inr ⟨rfl, ?_⟩
    simp only [Binary64.signed, Bool.false_eq_true, if_false]
    omega
  · have hnat : (-n).toNat = n.natAbs := by omega
    rw [String.toList_append, Nat.toList_repr, hnat, hds]
    refine .inl ⟨rfl, ?_⟩
    simp only [Binary64.signed, if_true]
    omega

/-! The reader on the first characters of a value. -/

theorem value_digit {c : Char} {room fuel : Nat} (h : isDigit c = true) :
    value room (fuel + 1) (c :: rest) = unsigned false (c :: rest) := by
  rw [value.eq_def]
  simp only
  split
  all_goals first
    | rfl
    | next heq =>
      cases heq
      cases h

theorem value_minus {c : Char} {room fuel : Nat} (h : isDigit c = true) :
    value room (fuel + 1) ('-' :: c :: rest) = unsigned true (c :: rest) := by
  rw [value]
  rintro _ heq
  cases heq
  cases h

theorem value_list {room fuel : Nat} (h : ∀ cs, skipBlanks rest = ']' :: cs → False) :
    value (room + 1) (fuel + 1) ('[' :: rest) = do
      let (items, rest) ← elements room fuel (skipBlanks rest)
      return (.list items, rest) := by
  rw [value.eq_def]
  simp only

theorem value_object {room fuel : Nat} (h : ∀ cs, skipBlanks rest = '\x7d' :: cs → False) :
    value (room + 1) (fuel + 1) ('\x7b' :: rest) = do
      let (fields, rest) ← members room fuel [] (skipBlanks rest)
      return (.object fields, rest) := by
  rw [value.eq_def]
  simp only

theorem value_ofInt {n : Int} {room fuel : Nat} (hn : n.natAbs < 10 ^ Numeral.maxDigits)
    (h : Ends rest) : value room (fuel + 1) (ofInt n ++ rest) = .ok (.int n, rest) := by
  obtain ⟨c, ds, hds, hc, hsign⟩ := ofInt_cases n
  have hread (negative : Bool) := unsigned_toDigits negative hn h
  rw [hds] at hread
  rcases hsign with ⟨hwritten, hsigned⟩ | ⟨hwritten, hsigned⟩
  · rw [hwritten, List.cons_append, List.cons_append, value_minus hc, ← List.cons_append, hread,
      hsigned]
  · rw [hwritten, List.cons_append, value_digit hc, ← List.cons_append, hread, hsigned]

/-! Blanks. -/

theorem not_isBlank_of_isDigit {c : Char} (h : isDigit c = true) : isBlank c = false := by
  rw [← Bool.not_eq_true]
  intro hblank
  simp only [isBlank, Bool.or_eq_true, beq_iff_eq] at hblank
  rcases hblank with ((rfl | rfl) | rfl) | rfl <;> cases h

theorem skipBlanks_cons {c : Char} {cs : List Char} (h : isBlank c = false) :
    skipBlanks (c :: cs) = c :: cs := by
  simp only [skipBlanks, List.dropWhile_cons, h, Bool.false_eq_true, if_false]

theorem skipBlanks_gap (level : Option Nat) (cs : List Char) :
    skipBlanks (gap level ++ cs) = skipBlanks cs := by
  cases level with
  | none => rfl
  | some level =>
    have hgap : ∀ c ∈ newline level, isBlank c = true := by
      intro c hc
      rcases List.mem_cons.1 hc with rfl | hc
      · rfl
      · rw [List.eq_of_mem_replicate hc]
        rfl
    exact List.dropWhile_append_of_pos hgap

theorem Ends.cons {c : Char} (h : isDigit c = false ∧ c ≠ '.' ∧ c ≠ 'e' ∧ c ≠ 'E')
    (cs : List Char) : Ends (c :: cs) := by
  rintro _ ⟨⟩
  exact h

theorem Ends.gap {cs : List Char} (level : Option Nat) (h : Ends cs) : Ends (gap level ++ cs) := by
  cases level with
  | none => exact h
  | some level => exact .cons (by decide) _

/-! Values. -/

/-- A value whose text reads as the value again, if what stands inside it does. -/
def Legible (v : Value) : Prop := v.Readable ∧ v.isFloat = false

theorem Value.Within.legible {v : Value} {room : Nat} (h : v.Within Readable room)
    (hfloatless : v.Floatless) : v.Within Legible room :=
  ⟨fun w hw => ⟨h.every w hw, hfloatless w hw⟩, h.depth⟩

theorem render_head {v : Value} (h : Legible v) (level : Option Nat) :
    ∃ c cs, render level v = c :: cs ∧ isBlank c = false ∧ c ≠ ']' := by
  cases v with
  | null => exact ⟨'n', _, rfl, rfl, by decide⟩
  | bool b => cases b <;> exact ⟨_, _, rfl, rfl, by decide⟩
  | int n =>
    obtain ⟨c, ds, -, hc, hsign⟩ := ofInt_cases n
    rcases hsign with ⟨hwritten, -⟩ | ⟨hwritten, -⟩
    · exact ⟨'-', _, hwritten, rfl, by decide⟩
    · exact ⟨c, _, hwritten, not_isBlank_of_isDigit hc, by rintro rfl; cases hc⟩
  | float x => nomatch h.2
  | text t => exact ⟨'"', _, rfl, rfl, by decide⟩
  | list items => cases items <;> exact ⟨'[', _, rfl, rfl, by decide⟩
  | object fields => rcases fields with _ | ⟨⟨n, v⟩, fs⟩ <;> exact ⟨'\x7b', _, rfl, rfl, by decide⟩

variable {level : Option Nat} {v : Value} {name : Text}

theorem skipBlanks_render (h : Legible v) (cs : List Char) :
    skipBlanks (render level v ++ cs) = render level v ++ cs := by
  obtain ⟨c, cs, hrender, hblank, -⟩ := render_head h level
  rw [hrender]
  exact skipBlanks_cons hblank

theorem skipBlanks_item (h : Legible v) (cs : List Char) :
    skipBlanks (gap level ++ (render level v ++ cs)) = render level v ++ cs := by
  rw [skipBlanks_gap, skipBlanks_render h]

theorem skipBlanks_field (cs : List Char) :
    skipBlanks (gap level ++ (quote name ++ cs)) = quote name ++ cs := by
  rw [skipBlanks_gap]
  exact skipBlanks_cons rfl

theorem stringBody_quoted {t : Text} (h : Joined t) (cs : List Char) :
    ∃ body, quote t ++ cs = '"' :: body ∧ stringBody body = .ok (t, cs) := by
  refine ⟨t.flatMap escapePoint ++ '"' :: cs, ?_, stringBody_flatMap h cs⟩
  simp only [quote, List.cons_append, List.append_assoc, List.nil_append]

/-! What is written of the values in a list and the fields of an object, with what follows. -/

theorem render_list_append (vs : List Value) (cs : List Char) :
    render level (.list (v :: vs)) ++ cs =
      '[' :: (gap (deeper level) ++ (render (deeper level) v ++
        (renderItems (deeper level) vs ++ (gap level ++ ']' :: cs)))) := by
  simp only [render, List.cons_append, List.append_assoc, List.nil_append]

theorem renderItems_append (vs : List Value) (cs : List Char) :
    renderItems level (v :: vs) ++ cs =
      ',' :: (gap level ++ (render level v ++ (renderItems level vs ++ cs))) := by
  simp only [renderItems, List.cons_append, List.append_assoc]

theorem render_object_append (fs : List (Text × Value)) (cs : List Char) :
    render level (.object ((name, v) :: fs)) ++ cs =
      '\x7b' :: (gap (deeper level) ++ (quote name ++ (':' :: ' ' :: (render (deeper level) v ++
        (renderFields (deeper level) fs ++ (gap level ++ '\x7d' :: cs)))))) := by
  simp only [render, List.cons_append, List.append_assoc, List.nil_append]

theorem renderFields_append (fs : List (Text × Value)) (cs : List Char) :
    renderFields level ((name, v) :: fs) ++ cs =
      ',' :: (gap level ++ (quote name ++
        (':' :: ' ' :: (render level v ++ (renderFields level fs ++ cs))))) := by
  simp only [renderFields, List.cons_append, List.append_assoc, List.nil_append]

theorem setField_of_not_mem {α : Type} {name : Text} {fields : List (Text × α)} (v : α)
    (h : name ∉ fields.map Prod.fst) : setField name v fields = fields ++ [(name, v)] := by
  induction fields with
  | nil => rfl
  | cons f fields ih =>
    obtain ⟨hf, hfields⟩ := List.ne_and_not_mem_of_not_mem_cons h
    simp only [setField, Ne.symm hf, if_false, ih hfields, List.cons_append]

/-- What each reader makes of a text that was written. No character takes more than two steps. -/
structure ReadsBack (fuel : Nat) : Prop where
  value : ∀ {room level v rest}, v.Within Legible room → 2 * (render level v).length ≤ fuel →
    Ends rest → Json.value room fuel (render level v ++ rest) = .ok (v, rest)
  elements : ∀ {room level v vs close rest}, (∀ w ∈ v :: vs, w.Within Legible room) →
    2 * ((render level v).length + (renderItems level vs).length) < fuel → Ends close →
    skipBlanks close = ']' :: rest →
      Json.elements room fuel (render level v ++ (renderItems level vs ++ close)) =
        .ok (v :: vs, rest)
  members : ∀ before {room level name v fs close rest},
    (object (before ++ (name, v) :: fs)).Within Legible (room + 1) →
    2 * ((render level v).length + (renderFields level fs).length) < fuel → Ends close →
    skipBlanks close = '\x7d' :: rest →
      Json.members room fuel before
          (quote name ++ (':' :: ' ' :: (render level v ++ (renderFields level fs ++ close)))) =
        .ok (before ++ (name, v) :: fs, rest)

variable {fuel room : Nat} {close : List Char}

theorem ReadsBack.value_succ (ih : ReadsBack fuel) (h : v.Within Legible room)
    (hfuel : 2 * (render level v).length ≤ fuel + 1) (hends : Ends rest) :
    Json.value room (fuel + 1) (render level v ++ rest) = .ok (v, rest) := by
  have hroom (hcontainer : 0 < v.depth) : ∃ r, room = r + 1 :=
    Nat.exists_eq_add_one.2 (Nat.lt_of_lt_of_le hcontainer h.depth)
  cases v with
  | null => rfl
  | bool b => cases b <;> rfl
  | int n => exact value_ofInt h.self.1 hends
  | float x => nomatch h.self.2
  | text t =>
    obtain ⟨body, hquote, hbody⟩ := stringBody_quoted h.self.1 rest
    rw [render, hquote, Json.value, hbody]
    rfl
  | list items =>
    obtain ⟨room, rfl⟩ := hroom (Nat.succ_pos _)
    cases items with
    | nil => rfl
    | cons v vs =>
      obtain ⟨-, hitems⟩ := within_list.1 h
      have hv := (hitems v List.mem_cons_self).self
      have hopen (cs cs' : List Char) : skipBlanks (gap (deeper level) ++
          (render (deeper level) v ++ cs)) = ']' :: cs' → False := by
        intro heq
        obtain ⟨c, _, hc, -, hne⟩ := render_head hv (deeper level)
        rw [skipBlanks_item hv, hc] at heq
        exact hne (List.cons.inj heq).1
      simp only [render, List.length_append, List.length_cons, List.length_nil] at hfuel
      rw [render_list_append, value_list (hopen _), skipBlanks_item hv,
        ih.elements hitems (by omega) (.gap level (.cons (by decide) _)) (skipBlanks_gap level _)]
      rfl
  | object fields =>
    obtain ⟨room, rfl⟩ := hroom (Nat.succ_pos _)
    cases fields with
    | nil => rfl
    | cons f fs =>
      obtain ⟨name, v⟩ := f
      have hopen (cs cs' : List Char) :
          skipBlanks (gap (deeper level) ++ (quote name ++ cs)) = '\x7d' :: cs' → False := by
        intro heq
        rw [skipBlanks_field] at heq
        cases heq
      simp only [render, List.length_append, List.length_cons, List.length_nil] at hfuel
      rw [render_object_append, value_object (hopen _), skipBlanks_field,
        ih.members [] h (by omega) (.gap level (.cons (by decide) _)) (skipBlanks_gap level _)]
      rfl

theorem ReadsBack.elements_succ {vs : List Value} (ih : ReadsBack fuel)
    (h : ∀ w ∈ v :: vs, w.Within Legible room)
    (hfuel : 2 * ((render level v).length + (renderItems level vs).length) < fuel + 1)
    (hends : Ends close) (hclose : skipBlanks close = ']' :: rest) :
    Json.elements room (fuel + 1) (render level v ++ (renderItems level vs ++ close)) =
      .ok (v :: vs, rest) := by
  obtain ⟨hv, hvs⟩ := List.forall_mem_cons.1 h
  rw [Json.elements]
  cases vs with
  | nil =>
    rw [renderItems, List.nil_append, ih.value hv (by omega) hends, Outcome.ok_bind]
    simp only [hclose]
    rfl
  | cons w ws =>
    have hw := (hvs w List.mem_cons_self).self
    simp only [renderItems, List.length_append, List.length_cons] at hfuel
    rw [renderItems_append, ih.value hv (by omega) (.cons (by decide) _), Outcome.ok_bind]
    simp only [skipBlanks_cons (c := ',') rfl, skipBlanks_item hw]
    rw [ih.elements hvs (by omega) hends hclose]
    rfl

theorem ReadsBack.members_succ {before fs : List (Text × Value)} (ih : ReadsBack fuel)
    (h : (object (before ++ (name, v) :: fs)).Within Legible (room + 1))
    (hfuel : 2 * ((render level v).length + (renderFields level fs).length) < fuel + 1)
    (hends : Ends close) (hclose : skipBlanks close = '\x7d' :: rest) :
    Json.members room (fuel + 1) before
        (quote name ++ (':' :: ' ' :: (render level v ++ (renderFields level fs ++ close)))) =
      .ok (before ++ (name, v) :: fs, rest) := by
  obtain ⟨⟨⟨hnames, hnodup⟩, _⟩, hvalues⟩ := within_object.1 h
  have hmem : (name, v) ∈ before ++ (name, v) :: fs :=
    List.mem_append_right _ List.mem_cons_self
  have hv : v.Within Legible room := hvalues _ hmem
  have hset : setField name v before = before ++ [(name, v)] := by
    apply setField_of_not_mem
    rw [List.map_append] at hnodup
    exact fun hbefore => (List.nodup_append.1 hnodup).2.2 _ hbefore _ List.mem_cons_self rfl
  have hskip (cs : List Char) : skipBlanks (' ' :: (render level v ++ cs)) = render level v ++ cs :=
    skipBlanks_render hv.self cs
  obtain ⟨body, hquote, hbody⟩ := stringBody_quoted (hnames _ hmem)
    (':' :: ' ' :: (render level v ++ (renderFields level fs ++ close)))
  rw [hquote, Json.members, hbody, Outcome.ok_bind]
  simp only [skipBlanks_cons (c := ':') rfl, hskip]
  cases fs with
  | nil =>
    rw [renderFields, List.nil_append, ih.value hv (by omega) hends, Outcome.ok_bind]
    simp only [hclose, hset]
    rfl
  | cons f fs =>
    obtain ⟨name', w⟩ := f
    have hsplit : before ++ (name, v) :: (name', w) :: fs =
        before ++ [(name, v)] ++ (name', w) :: fs := by
      rw [List.append_assoc, List.singleton_append]
    rw [hsplit] at h ⊢
    simp only [renderFields, List.length_append, List.length_cons] at hfuel
    rw [renderFields_append, ih.value hv (by omega) (.cons (by decide) _), Outcome.ok_bind]
    simp only [skipBlanks_cons (c := ',') rfl, skipBlanks_field, hset]
    exact ih.members _ h (by omega) hends hclose

theorem readsBack (fuel : Nat) : ReadsBack fuel := by
  -- the readers call each other with one step less, whatever the depth of the value
  induction fuel with
  | zero =>
    refine ⟨fun {_ level _ _} h hfuel _ => ?_, fun _ hfuel => absurd hfuel (Nat.not_lt_zero _),
      fun _ _ _ _ _ _ _ _ _ hfuel => absurd hfuel (Nat.not_lt_zero _)⟩
    obtain ⟨c, cs, hrender, -⟩ := render_head h.self level
    rw [hrender, List.length_cons] at hfuel
    omega
  | succ fuel ih => exact ⟨ih.value_succ, ih.elements_succ, fun _ => ih.members_succ⟩

/-- What is written is read back, wherever there is room for its levels. -/
theorem readWithin_render (h : v.Within Legible room) (level : Option Nat) :
    readWithin room (render level v) = .ok v := by
  have hends : Ends [] := nofun
  have hskip : skipBlanks (render level v ++ []) = render level v ++ [] :=
    skipBlanks_render h.self []
  have hvalue := (readsBack (2 * (render level v).length + 1)).value h (Nat.le_succ _) hends
  rw [List.append_nil] at hskip hvalue
  rw [readWithin, hskip, hvalue]
  rfl

end Settlement.Json
