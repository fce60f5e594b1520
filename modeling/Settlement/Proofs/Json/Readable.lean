import Mathlib.Data.Nat.Digits.Defs
import Settlement.Proofs.Fault.Outcome
import Settlement.Proofs.Json.Strings

/-! What reading leaves: whole numbers of not too many digits, text whose surrogates are joined,
objects with each name once, and no more levels than there was room for. -/

namespace Settlement.Json

namespace Value

mutual

/-- A value and all that stands inside it. -/
def parts : Value → List Value
  | .list items => .list items :: partsOfItems items
  | .object fields => .object fields :: partsOfFields fields
  | v => [v]

def partsOfItems : List Value → List Value
  | [] => []
  | v :: vs => parts v ++ partsOfItems vs

def partsOfFields : List (Text × Value) → List Value
  | [] => []
  | (_, v) :: fs => parts v ++ partsOfFields fs

end

def Every (p : Value → Prop) (v : Value) : Prop := ∀ w ∈ v.parts, p w

def isFloat : Value → Bool
  | .float _ => true
  | _ => false

/-- No number in the value has a fraction or a power, and none is `NaN` or infinite. -/
def Floatless : Value → Prop := Every fun v => v.isFloat = false

instance (v : Value) : Decidable v.Floatless :=
  inferInstanceAs (Decidable (∀ w ∈ v.parts, w.isFloat = false))

/-- A value whose text can be read back, if what stands inside it can. -/
def Readable : Value → Prop
  | .int n => n.natAbs < 10 ^ Numeral.maxDigits
  | .text t => Joined t
  | .object fields => (∀ f ∈ fields, Joined f.1) ∧ (fields.map Prod.fst).Nodup
  | _ => True

variable {p : Value → Prop} {items : List Value} {fields : List (Text × Value)}

theorem mem_partsOfItems {w : Value} : w ∈ partsOfItems items ↔ ∃ v ∈ items, w ∈ v.parts := by
  induction items with
  | nil => simp only [partsOfItems, List.not_mem_nil, false_and, exists_false]
  | cons v vs ih => simp only [partsOfItems, List.mem_append, ih, List.mem_cons, exists_eq_or_imp]

theorem mem_partsOfFields {w : Value} :
    w ∈ partsOfFields fields ↔ ∃ f ∈ fields, w ∈ f.2.parts := by
  induction fields with
  | nil => simp only [partsOfFields, List.not_mem_nil, false_and, exists_false]
  | cons f fs ih => simp only [partsOfFields, List.mem_append, ih, List.mem_cons, exists_eq_or_imp]

theorem every_list : (list items).Every p ↔ p (list items) ∧ ∀ v ∈ items, v.Every p := by
  simp only [Every, parts, List.mem_cons, mem_partsOfItems]
  constructor
  · intro h
    exact ⟨h _ (.inl rfl), fun v hv w hw => h w (.inr ⟨v, hv, hw⟩)⟩
  · rintro ⟨hlist, hitems⟩ w (rfl | ⟨v, hv, hw⟩)
    · exact hlist
    · exact hitems v hv w hw

theorem every_object : (object fields).Every p ↔ p (object fields) ∧ ∀ f ∈ fields, f.2.Every p := by
  simp only [Every, parts, List.mem_cons, mem_partsOfFields]
  constructor
  · intro h
    exact ⟨h _ (.inl rfl), fun f hf w hw => h w (.inr ⟨f, hf, hw⟩)⟩
  · rintro ⟨hobject, hfields⟩ w (rfl | ⟨f, hf, hw⟩)
    · exact hobject
    · exact hfields f hf w hw

theorem depthItems_le {room : Nat} : depthItems items ≤ room ↔ ∀ v ∈ items, v.depth ≤ room := by
  induction items with
  | nil => simp only [depthItems, Nat.zero_le, List.not_mem_nil, false_implies, implies_true]
  | cons v vs ih => simp only [depthItems, Nat.max_le, ih, List.forall_mem_cons]

theorem depthFields_le {room : Nat} :
    depthFields fields ≤ room ↔ ∀ f ∈ fields, f.2.depth ≤ room := by
  induction fields with
  | nil => simp only [depthFields, Nat.zero_le, List.not_mem_nil, false_implies, implies_true]
  | cons f fs ih => simp only [depthFields, Nat.max_le, ih, List.forall_mem_cons]

/-- Every part of the value is as it has to be, and there is room for its levels. -/
structure Within (p : Value → Prop) (room : Nat) (v : Value) : Prop where
  every : v.Every p
  depth : v.depth ≤ room

variable {v : Value} {room room' : Nat}

theorem Within.mono (h : v.Within p room) (hroom : room ≤ room') : v.Within p room' :=
  ⟨h.every, Nat.le_trans h.depth hroom⟩

theorem within_list :
    (list items).Within p (room + 1) ↔ p (list items) ∧ ∀ v ∈ items, v.Within p room := by
  constructor
  · rintro ⟨hevery, hdepth⟩
    obtain ⟨hlist, hitems⟩ := every_list.1 hevery
    exact ⟨hlist, fun v hv => ⟨hitems v hv, depthItems_le.1 (Nat.le_of_succ_le_succ hdepth) v hv⟩⟩
  · rintro ⟨hlist, hitems⟩
    exact ⟨every_list.2 ⟨hlist, fun v hv => (hitems v hv).every⟩,
      Nat.succ_le_succ (depthItems_le.2 fun v hv => (hitems v hv).depth)⟩

theorem within_object :
    (object fields).Within p (room + 1) ↔ p (object fields) ∧ ∀ f ∈ fields, f.2.Within p room := by
  constructor
  · rintro ⟨hevery, hdepth⟩
    obtain ⟨hobject, hfields⟩ := every_object.1 hevery
    exact ⟨hobject,
      fun f hf => ⟨hfields f hf, depthFields_le.1 (Nat.le_of_succ_le_succ hdepth) f hf⟩⟩
  · rintro ⟨hobject, hfields⟩
    exact ⟨every_object.2 ⟨hobject, fun f hf => (hfields f hf).every⟩,
      Nat.succ_le_succ (depthFields_le.2 fun f hf => (hfields f hf).depth)⟩

theorem within_atom (h : v.isKey = true) : v.Within p room ↔ p v := by
  have hparts : v.parts = [v] ∧ v.depth = 0 := by
    cases v with
    | list => cases h
    | object => cases h
    | _ => exact ⟨rfl, rfl⟩
  constructor
  · exact fun hwithin => hwithin.every v (hparts.1 ▸ List.mem_cons_self)
  · refine fun hv => ⟨?_, hparts.2 ▸ Nat.zero_le _⟩
    rw [Every, hparts.1, List.forall_mem_singleton]
    exact hv

theorem Within.self (h : v.Within p room) : p v := by
  refine h.every v ?_
  cases v <;> exact List.mem_cons_self

end Value

open Value

theorem within_empty {room : Nat} : (object []).Within Readable (room + 1) :=
  within_object.2 ⟨⟨nofun, List.nodup_nil⟩, nofun⟩

/-! Fields. -/

theorem mem_setField {α : Type} {name : Text} {v : α} {fields : List (Text × α)} {f : Text × α}
    (h : f ∈ setField name v fields) : f = (name, v) ∨ f ∈ fields := by
  induction fields with
  | nil => exact .inl (List.mem_singleton.1 h)
  | cons g fields ih =>
    simp only [setField] at h
    split at h
    · next hname =>
      rcases List.mem_cons.1 h with rfl | h
      · exact .inl (by rw [hname])
      · exact .inr (List.mem_cons_of_mem _ h)
    · rcases List.mem_cons.1 h with rfl | h
      · exact .inr List.mem_cons_self
      · exact (ih h).imp_right (List.mem_cons_of_mem _)

theorem nodup_setField {α : Type} (name : Text) (v : α) {fields : List (Text × α)}
    (h : (fields.map Prod.fst).Nodup) : ((setField name v fields).map Prod.fst).Nodup := by
  induction fields with
  | nil => exact List.nodup_cons.2 ⟨List.not_mem_nil, List.nodup_nil⟩
  | cons g fields ih =>
    obtain ⟨hg, hfields⟩ := List.nodup_cons.1 h
    simp only [setField]
    split
    · exact List.nodup_cons.2 ⟨hg, hfields⟩
    · next hname =>
      refine List.nodup_cons.2 ⟨fun hmem => ?_, ih hfields⟩
      obtain ⟨f, hf, hfg⟩ := List.mem_map.1 hmem
      rcases mem_setField hf with rfl | hf
      · exact hname hfg.symm
      · exact hg (hfg ▸ List.mem_map_of_mem hf)

theorem within_setField {name : Text} {v : Value} {fields : List (Text × Value)} {room : Nat}
    (h : (object fields).Within Readable (room + 1)) (hname : Joined name)
    (hv : v.Within Readable room) :
    (object (setField name v fields)).Within Readable (room + 1) := by
  obtain ⟨⟨hnames, hnodup⟩, hvalues⟩ := within_object.1 h
  refine within_object.2 ⟨⟨fun f hf => ?_, nodup_setField name v hnodup⟩, fun f hf => ?_⟩
  · rcases mem_setField hf with rfl | hf
    · exact hname
    · exact hnames f hf
  · rcases mem_setField hf with rfl | hf
    · exact hv
    · exact hvalues f hf

/-! Numbers. -/

theorem digitsValue_lt {ds : List Char} (h : ∀ c ∈ ds, isDigit c = true) :
    digitsValue ds < 10 ^ ds.length := by
  have hfold (ds : List Char) (h : ∀ c ∈ ds, isDigit c = true) (n : Nat) :
      ds.foldl (fun n c => 10 * n + (c.toNat - 48)) n < (n + 1) * 10 ^ ds.length := by
    induction ds generalizing n with
    | nil => simp only [List.foldl_nil, List.length_nil, Nat.pow_zero]; omega
    | cons c ds ih =>
      have hc := h c List.mem_cons_self
      simp only [isDigit, Bool.and_eq_true, decide_eq_true_eq, Char.le_def] at hc
      have hdigit : c.toNat ≤ 57 := hc.2
      have hstep : 10 * n + (c.toNat - 48) + 1 ≤ (n + 1) * 10 := by omega
      refine Nat.lt_of_lt_of_le (ih (fun d hd => h d (List.mem_cons_of_mem _ hd)) _) ?_
      rw [List.length_cons, Nat.pow_succ', ← Nat.mul_assoc]
      exact Nat.mul_le_mul_right _ hstep
  simpa [digitsValue] using hfold ds h 0

/-- The digits at the start of a number. A zero stands alone. -/
def wholeDigits (cs : List Char) : List Char :=
  match cs with
  | '0' :: _ => ['0']
  | _ => cs.takeWhile isDigit

theorem isDigit_of_mem_wholeDigits {cs : List Char} : ∀ c ∈ wholeDigits cs, isDigit c = true := by
  simp only [wholeDigits]
  split
  · exact List.forall_mem_singleton.2 rfl
  · exact List.all_eq_true.1 List.all_takeWhile

theorem unsigned_eq (negative : Bool) (cs : List Char) :
    unsigned negative cs =
      let whole := wholeDigits cs
      let frac := fraction (cs.drop whole.length)
      let pow := power frac.2
      if whole = [] then .error .malformed
      else if frac.1.isEmpty && pow.1.isNone then
        if Numeral.maxDigits < whole.length then .error .tooManyDigits
        else .ok (.int (Binary64.signed negative (digitsValue whole)), pow.2)
      else .ok (.float (.ofDecimal negative (digitsValue (whole ++ frac.1))
        (pow.1.getD 0 - frac.1.length)), pow.2) := by
  simp only [unsigned]
  split
  · next h =>
    have hwhole : wholeDigits cs = [] := h
    simp only [hwhole, if_true]
  · next h =>
    have hwhole : wholeDigits cs ≠ [] := h
    simp only [hwhole, if_false]
    rfl

theorem unsigned_within {negative : Bool} {cs rest : List Char} {v : Value} {room : Nat}
    (h : unsigned negative cs = .ok (v, rest)) : v.Within Readable room := by
  rw [unsigned_eq] at h
  dsimp only at h
  split at h
  · cases h
  split at h
  · split at h
    · cases h
    · next hlength =>
      cases h
      have hlt : digitsValue (wholeDigits cs) < 10 ^ Numeral.maxDigits :=
        Nat.lt_of_lt_of_le (digitsValue_lt isDigit_of_mem_wholeDigits)
          (Nat.pow_le_pow_right (by omega) (Nat.le_of_not_lt hlength))
      refine (within_atom rfl).2 ?_
      cases negative <;> simpa [Readable, Binary64.signed] using hlt
  · cases h
    exact (within_atom rfl).2 trivial

/-- What each of the three readers leaves. The fields are added to those before them. -/
structure Leaves (fuel : Nat) : Prop where
  value : ∀ {room cs rest v}, Json.value room fuel cs = .ok (v, rest) → v.Within Readable room
  elements : ∀ {room cs rest vs}, Json.elements room fuel cs = .ok (vs, rest) →
    ∀ v ∈ vs, v.Within Readable room
  members : ∀ {room before cs rest fields}, Json.members room fuel before cs = .ok (fields, rest) →
    (object before).Within Readable (room + 1) → (object fields).Within Readable (room + 1)

theorem Leaves.value_succ {fuel room : Nat} {cs rest : List Char} {v : Value} (ih : Leaves fuel)
    (h : Json.value room (fuel + 1) cs = .ok (v, rest)) : v.Within Readable room := by
  rw [value.eq_def] at h
  simp only at h
  split at h
  · obtain ⟨⟨t, rest⟩, ht, h⟩ := Outcome.bind_eq_ok.1 h
    cases h
    exact (within_atom rfl).2 (stringBody_joined ht).1
  · split at h
    · cases h
    · cases h
      exact within_empty
    · obtain ⟨⟨fields, rest⟩, hfields, h⟩ := Outcome.bind_eq_ok.1 h
      cases h
      exact ih.members hfields within_empty
  · split at h
    · cases h
    · cases h
      exact within_list.2 ⟨trivial, nofun⟩
    · obtain ⟨⟨items, rest⟩, hitems, h⟩ := Outcome.bind_eq_ok.1 h
      cases h
      exact within_list.2 ⟨trivial, ih.elements hitems⟩
  · cases h
    exact (within_atom rfl).2 trivial
  · cases h
    exact (within_atom rfl).2 trivial
  · cases h
    exact (within_atom rfl).2 trivial
  · cases h
    exact (within_atom rfl).2 trivial
  · cases h
    exact (within_atom rfl).2 trivial
  · cases h
    exact (within_atom rfl).2 trivial
  · exact unsigned_within h
  · exact unsigned_within h

theorem Leaves.elements_succ {fuel room : Nat} {cs rest : List Char} {vs : List Value}
    (ih : Leaves fuel) (h : Json.elements room (fuel + 1) cs = .ok (vs, rest)) :
    ∀ v ∈ vs, v.Within Readable room := by
  rw [elements.eq_def] at h
  simp only at h
  obtain ⟨⟨v, rest⟩, hv, h⟩ := Outcome.bind_eq_ok.1 h
  simp only at h
  split at h
  · cases h
    exact List.forall_mem_singleton.2 (ih.value hv)
  · obtain ⟨⟨vs, rest⟩, hvs, h⟩ := Outcome.bind_eq_ok.1 h
    cases h
    exact List.forall_mem_cons.2 ⟨ih.value hv, ih.elements hvs⟩
  · cases h

theorem Leaves.members_succ {fuel room : Nat} {before fields : List (Text × Value)}
    {cs rest : List Char} (ih : Leaves fuel)
    (h : Json.members room (fuel + 1) before cs = .ok (fields, rest))
    (hbefore : (object before).Within Readable (room + 1)) :
    (object fields).Within Readable (room + 1) := by
  rw [members.eq_def] at h
  simp only at h
  split at h
  · obtain ⟨⟨name, rest⟩, hname, h⟩ := Outcome.bind_eq_ok.1 h
    simp only at h
    split at h
    · obtain ⟨⟨v, rest⟩, hv, h⟩ := Outcome.bind_eq_ok.1 h
      have hset := within_setField hbefore (stringBody_joined hname).1 (ih.value hv)
      simp only at h
      split at h
      · cases h
        exact hset
      · exact ih.members h hset
      · cases h
    · cases h
  · cases h

theorem leaves (fuel : Nat) : Leaves fuel := by
  induction fuel with
  | zero =>
    refine ⟨fun h => ?_, fun h => ?_, fun h => ?_⟩
    · rw [value.eq_def] at h
      cases h
    · rw [elements.eq_def] at h
      cases h
    · rw [members.eq_def] at h
      cases h
  | succ fuel ih => exact ⟨ih.value_succ, ih.elements_succ, ih.members_succ⟩

theorem within_of_readWithin {room : Nat} {cs : List Char} {v : Value}
    (h : readWithin room cs = .ok v) : v.Within Readable room := by
  obtain ⟨⟨w, rest⟩, hvalue, h⟩ := Outcome.bind_eq_ok.1 h
  simp only at h
  split at h
  · cases h
    exact (leaves _).value hvalue
  · cases h

end Settlement.Json
