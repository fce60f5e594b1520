import Settlement.Proofs.Split.Legs

/-! Ratios of whole numbers that are accepted: fractions between zero and one. A policy is built of
them without a fault, and divides by none of them that is zero. -/

namespace Settlement

namespace Number

variable {x y : Number} {m n : Int}

theorem compare?_of_int? (hx : x.int? = some m) (hy : y.int? = some n) :
    x.compare? y = (int m).compare? (int n) := by
  have hm : (int m).int? = some m := rfl
  have hn : (int n).int? = some n := rfl
  simp only [compare?, hx, hy, hm, hn]

theorem less_of_int? (hx : x.int? = some m) (hy : y.int? = some n) :
    x.less y = decide (m < n) := by
  rw [less, compare?_of_int? hx hy]
  exact less_int m n

theorem lessEq_of_int? (hx : x.int? = some m) (hy : y.int? = some n) :
    x.lessEq y = decide (m ≤ n) := by
  rw [lessEq, less, compare?_of_int? hx hy]
  exact lessEq_int m n

theorem whole_of_int? (hx : x.int? = some n) : (Json.Value.ofNumber x).whole = .ok n := by
  cases x with
  | flag b =>
    cases hx
    rfl
  | int k =>
    cases hx
    rfl
  | float f => cases hx

end Number

namespace Ratio

/-- A value is accepted if its parts are numbers that pass three comparisons. -/
theorem ofValue_eq_ok {name : Text} {v : Json.Value} {r : Ratio} : ofValue name v = .ok r ↔
    parts v = .ok (.ofNumber r.numerator, .ofNumber r.denominator) ∧
      r.denominator.lessEq 0 = false ∧ r.numerator.less 0 = false ∧
      r.denominator.less r.numerator = false := by
  constructor
  · intro h
    obtain ⟨⟨a, b⟩, hparts, h⟩ := Outcome.bind_eq_ok.1 h
    dsimp only at h
    split at h
    · cases h
    · next d hd =>
      split at h
      · cases h
      · next hdenominator =>
        split at h
        · cases h
        · next n hn =>
          split at h
          · cases h
          · next hnumerator =>
            cases h
            rw [Json.Value.ofNumber_number? hn, Json.Value.ofNumber_number? hd]
            simp_all
  · rintro ⟨hparts, hdenominator, hnumerator, hle⟩
    simp only [ofValue, hparts, Outcome.ok_bind, Json.Value.number?_ofNumber, hdenominator,
      hnumerator, hle, Bool.false_eq_true, if_false, Bool.or_false]

theorem ofValue_toValue {name : Text} {v : Json.Value} {r : Ratio} (h : ofValue name v = .ok r) :
    ofValue name r.toValue = .ok r :=
  ofValue_eq_ok.2 ⟨rfl, (ofValue_eq_ok.1 h).2⟩

/-- A ratio of whole numbers that passes the check of its values. -/
structure Accepted (name : Text) (r : Ratio) : Prop where
  numerator : ∃ n, r.numerator.int? = some n
  denominator : ∃ d, r.denominator.int? = some d
  checked : ofValue name r.toValue = .ok r

theorem Accepted.bounds {name : Text} {r : Ratio} {n d : Int} (h : r.Accepted name)
    (hn : r.numerator.int? = some n) (hd : r.denominator.int? = some d) :
    0 ≤ n ∧ n ≤ d ∧ 0 < d := by
  have hzero : Number.int? 0 = some 0 := rfl
  obtain ⟨-, hdenominator, hnumerator, hle⟩ := ofValue_eq_ok.1 h.checked
  rw [Number.lessEq_of_int? hd hzero, decide_eq_false_iff_not] at hdenominator
  rw [Number.less_of_int? hn hzero, decide_eq_false_iff_not] at hnumerator
  rw [Number.less_of_int? hd hn, decide_eq_false_iff_not] at hle
  omega

end Ratio

/-- Ratios whose parts have whole parts make a policy, and what holds of all these shares holds of
those in the policy. -/
theorem Policy.ofRatios_ok {ratios : List (Text × Ratio)} {P : Share → Prop}
    (h : ∀ entry ∈ ratios, ∃ share : Share,
      (Json.Value.ofNumber entry.2.numerator).whole = .ok share.numerator ∧
        (Json.Value.ofNumber entry.2.denominator).whole = .ok share.denominator ∧ P share) :
    ∃ policy, ofRatios ratios = .ok policy ∧ ∀ entry ∈ policy, P entry.2 := by
  refine Outcome.mapM_ok fun entry hentry => ?_
  obtain ⟨share, hnumerator, hdenominator, hshare⟩ := h entry hentry
  refine ⟨(entry.1, share), ?_, hshare⟩
  simp only [hnumerator, hdenominator, Outcome.ok_bind]
  rfl

theorem Policy.ofRatios_accepted {ratios : List (Text × Ratio)}
    (h : ∀ entry ∈ ratios, entry.2.Accepted entry.1) :
    ∃ policy, ofRatios ratios = .ok policy ∧ ∀ entry ∈ policy,
      0 ≤ entry.2.numerator ∧ entry.2.numerator ≤ entry.2.denominator ∧
        0 < entry.2.denominator := by
  refine ofRatios_ok
    (P := fun share => 0 ≤ share.numerator ∧ share.numerator ≤ share.denominator ∧
      0 < share.denominator) fun entry hentry => ?_
  obtain ⟨n, hn⟩ := (h entry hentry).numerator
  obtain ⟨d, hd⟩ := (h entry hentry).denominator
  exact ⟨⟨n, d⟩, Number.whole_of_int? hn, Number.whole_of_int? hd, (h entry hentry).bounds hn hd⟩

namespace Json

variable {α β : Type} {name : Text}

theorem mem_of_field? {fields : List (Text × α)} {v : α} (h : field? name fields = some v) :
    (name, v) ∈ fields := by
  obtain ⟨⟨found, w⟩, hfind, rfl⟩ := Option.map_eq_some_iff.1 h
  have hsame : found = name := by simpa using List.find?_some hfind
  rw [hsame] at hfind
  exact List.mem_of_find?_eq_some hfind

theorem field?_isSome_iff {fields : List (Text × α)} :
    (field? name fields).isSome = true ↔ name ∈ fields.map Prod.fst := by
  rw [field?, Option.isSome_map, List.find?_isSome, List.mem_map]
  simp only [beq_iff_eq]

theorem exists_field? {fields : List (Text × α)} (h : name ∈ fields.map Prod.fst) :
    ∃ v, field? name fields = some v ∧ (name, v) ∈ fields := by
  obtain ⟨v, hv⟩ := Option.isSome_iff_exists.1 (field?_isSome_iff.2 h)
  exact ⟨v, hv, mem_of_field? hv⟩

/-- Steps that keep the names make of the first value under a name the first one under it. -/
theorem field?_of_mapM {f : Text × α → Outcome (Text × β)}
    (hf : ∀ x y, f x = .ok y → y.1 = x.1) {xs : List (Text × α)} {ys : List (Text × β)}
    (h : xs.mapM f = .ok ys) {v : α} (hv : field? name xs = some v) :
    ∃ w, field? name ys = some w ∧ f (name, v) = .ok (name, w) := by
  induction xs generalizing ys with
  | nil => cases hv
  | cons x xs ih =>
    rw [List.mapM_cons] at h
    obtain ⟨y, hy, h⟩ := Outcome.bind_eq_ok.1 h
    obtain ⟨ys', hys', h⟩ := Outcome.bind_eq_ok.1 h
    cases h
    have hname := hf x y hy
    obtain ⟨found, u⟩ := x
    obtain ⟨_, w⟩ := y
    cases hname
    by_cases hfound : found = name
    · subst hfound
      simp only [field?, List.find?_cons, BEq.rfl, Option.map_some, Option.some.injEq] at hv ⊢
      subst hv
      exact ⟨w, rfl, hy⟩
    · simp only [field?, List.find?_cons, beq_eq_false_iff_ne.2 hfound] at hv ⊢
      exact ih hys' hv

end Json

theorem Policy.share?_of_name {policy : Policy} {name : Text}
    (h : name ∈ policy.map Prod.fst) :
    ∃ share, policy.share? (.text name) = some share ∧ (name, share) ∈ policy :=
  Json.exists_field? h

theorem Policy.allows_iff {policy : Policy} {name : Text} :
    policy.allows (.text name) = true ↔ name ∈ policy.map Prod.fst :=
  Json.field?_isSome_iff

/-- The type is kept, and the parts of the share are the whole parts of the ratio. -/
theorem Policy.ofRatios_entry {name : Text} {r : Ratio} {entry : Text × Share}
    (h : (do
      let numerator ← (Json.Value.ofNumber r.numerator).whole
      let denominator ← (Json.Value.ofNumber r.denominator).whole
      return (name, Share.mk numerator denominator)) = Except.ok entry) :
    entry.1 = name ∧ (Json.Value.ofNumber r.numerator).whole = .ok entry.2.numerator ∧
      (Json.Value.ofNumber r.denominator).whole = .ok entry.2.denominator := by
  obtain ⟨numerator, hnumerator, h⟩ := Outcome.bind_eq_ok.1 h
  obtain ⟨denominator, hdenominator, h⟩ := Outcome.bind_eq_ok.1 h
  cases h
  exact ⟨rfl, hnumerator, hdenominator⟩

/-- Every operation type that has a ratio has a share in the policy. -/
theorem Policy.ofRatios_names {ratios : List (Text × Ratio)} {policy : Policy}
    (h : ofRatios ratios = .ok policy) : policy.map Prod.fst = ratios.map Prod.fst :=
  Outcome.map_of_mapM_ok (fun _ _ hentry => (ofRatios_entry hentry).1) h

theorem Policy.share?_ofRatios {ratios : List (Text × Ratio)} {policy : Policy} {name : Text}
    {r : Ratio} (h : ofRatios ratios = .ok policy) (hr : Json.field? name ratios = some r) :
    ∃ share, policy.share? (.text name) = some share ∧
      (Json.Value.ofNumber r.numerator).whole = .ok share.numerator ∧
      (Json.Value.ofNumber r.denominator).whole = .ok share.denominator := by
  obtain ⟨share, hshare, hentry⟩ :=
    Json.field?_of_mapM (fun _ _ hentry => (ofRatios_entry hentry).1) h hr
  exact ⟨share, hshare, (ofRatios_entry hentry).2⟩

/-- A fraction between zero and one divides every total that is a word. -/
theorem Policy.allocate_of_fraction {policy : Policy} {operation : Json.Value} {share : Share}
    {total : Int} (hshare : policy.share? operation = some share) (hfraction : share.IsFraction)
    (hpos : 0 < total) (hlt : total < 2 ^ 64) : policy.allocate operation (.int total) =
      .ok ⟨.int (share.toOrganization total), .int (share.toPool total)⟩ := by
  have hlegs := hfraction.legs_nonneg (Int.le_of_lt hpos)
  have hsum : share.toOrganization total + share.toPool total = total := by
    rw [Share.toPool]
    omega
  have hmax : maxAmount = 2 ^ 64 - 1 := rfl
  have hdenominator := hfraction.pos
  exact allocate_eq_ok_iff.2
    ⟨by omega, share, hshare, by omega, hlegs, ⟨by omega, by omega⟩, rfl⟩

end Settlement
