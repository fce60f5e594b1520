import Settlement.Proofs.Script.Calls

/-! How a run ends. Either the host has answered every call, or the meter has stopped the run before
a call, or the host has failed the last call that was handed over. No call is made twice and none is
made after a failure. -/

namespace Settlement

variable {σ τ : Type}

/-- The host answers these calls one after the other, and none of them fails. -/
inductive Host.Settles (host : Host σ) (caller : Bytes) : List Call → σ → σ → Prop
  | nil {s : σ} : Settles host caller [] s s
  | cons {c : Call} {cs : List Call} {s s₁ s₂ : σ} :
      host.invoke caller c s = (.ok (), s₁) → Settles host caller cs s₁ s₂ →
      Settles host caller (c :: cs) s s₂

/-- How the host's answers to these calls end: with the first fault, or without any. -/
inductive Host.Ends (host : Host σ) (caller : Bytes) : List Call → σ → Option Fault → Prop
  | nil {s : σ} : Ends host caller [] s none
  | failed {c : Call} {cs : List Call} {s t : σ} {e : Fault} :
      host.invoke caller c s = (.error e, t) → Ends host caller (c :: cs) s (some e)
  | cons {c : Call} {cs : List Call} {s t : σ} {fault : Option Fault} :
      host.invoke caller c s = (.ok (), t) → Ends host caller cs t fault →
      Ends host caller (c :: cs) s fault

namespace Host

variable {host : Host σ} {caller : Bytes}

theorem settles_nil_iff {s t : σ} : host.Settles caller [] s t ↔ s = t := by
  constructor
  · intro h
    cases h
    rfl
  · rintro rfl
    exact .nil

theorem settles_cons_iff {c : Call} {cs : List Call} {s t : σ} :
    host.Settles caller (c :: cs) s t ↔
      ∃ s₁, host.invoke caller c s = (.ok (), s₁) ∧ host.Settles caller cs s₁ t := by
  constructor
  · intro h
    cases h with
    | cons first rest => exact ⟨_, first, rest⟩
  · rintro ⟨s₁, first, rest⟩
    exact .cons first rest

theorem Settles.unique {cs : List Call} {s t u : σ} (h : host.Settles caller cs s t)
    (h' : host.Settles caller cs s u) : t = u := by
  induction h with
  | nil => exact settles_nil_iff.1 h'
  | cons first rest ih =>
    obtain ⟨between, hanswer, hrest⟩ := settles_cons_iff.1 h'
    cases first.symm.trans hanswer
    exact ih hrest

theorem Settles.ends {cs : List Call} {s t : σ} (h : host.Settles caller cs s t) :
    host.Ends caller cs s none := by
  induction h with
  | nil => exact .nil
  | cons first rest ih => exact .cons first ih

theorem Ends.settles {cs : List Call} {s : σ} (h : host.Ends caller cs s none) :
    ∃ t, host.Settles caller cs s t := by
  induction cs generalizing s with
  | nil => exact ⟨s, .nil⟩
  | cons c cs ih =>
    cases h with
    | cons first rest =>
      obtain ⟨t, settles⟩ := ih rest
      exact ⟨t, .cons first settles⟩

end Host

/-! The meter. Once the units used are a whole number and the limit is a number, they stay so, and
then a charge can only end in a refusal. -/

structure Meter.Counting (m : Meter) : Prop where
  used : ∃ n : Int, m.used = .int n
  limit : ∃ x, m.limit.number? = some x

namespace Meter

theorem counting_of_charge_start {limit : Json.Value} {units : Nat} {label : Text} {m : Meter}
    (h : (start limit).charge (.int units) label = (.ok (), m)) : m.Counting := by
  have hadd : Number.add? 0 (.int units) = some (.int (0 + units)) := Number.add?_int 0 units
  simp only [charge, start, hadd] at h
  cases hl : limit.number? with
  | none => simp [hl] at h
  | some x =>
    obtain ⟨-, rfl⟩ := Prod.mk.inj h
    exact ⟨⟨_, rfl⟩, ⟨x, hl⟩⟩

theorem charge_start_error {limit : Json.Value} {units : Nat} {label : Text} {e : Fault} {m : Meter}
    (h : (start limit).charge (.int units) label = (.error e, m)) :
    e = .wrongKind ∨ ∃ r, e = .refused r := by
  have hadd : Number.add? 0 (.int units) = some (.int (0 + units)) := Number.add?_int 0 units
  simp only [charge, start, hadd] at h
  obtain ⟨he, -⟩ := Prod.mk.inj h
  cases hl : limit.number? with
  | none =>
    simp only [hl, Except.error.injEq] at he
    exact .inl he.symm
  | some x =>
    by_cases hless : x.less (.int (0 + units))
    · simp only [hl, hless, if_true, refuse, Except.error.injEq] at he
      exact .inr ⟨_, he.symm⟩
    · simp only [hl, hless, if_false, Bool.false_eq_true, reduceCtorEq] at he

theorem Counting.charge {m : Meter} (hm : m.Counting) (units : Nat) (label : Text) :
    (m.charge (.int units) label).2.Counting ∧
      ((m.charge (.int units) label).1 = .ok () ∨
        ∃ r, (m.charge (.int units) label).1 = .error (.refused r)) := by
  obtain ⟨⟨n, hn⟩, ⟨x, hx⟩⟩ := hm
  have hcharge : m.charge (.int units) label =
      (if x.less (.int (n + units)) then refuse (.outOfCompute (.int (n + units)) x label)
        else .ok (), ⟨m.limit, .int (n + units)⟩) := by
    simp only [Meter.charge, hn, hx, Number.add?_int]
  rw [hcharge]
  refine ⟨⟨⟨_, rfl⟩, ⟨x, hx⟩⟩, ?_⟩
  by_cases hless : x.less (.int (n + units))
  · exact .inr ⟨.outOfCompute (.int (n + units)) x label, by simp [hless, refuse]⟩
  · exact .inl (by simp [hless])

end Meter

inductive Ending (host : Host σ) (caller : Bytes) (planned : List Call) (s : σ) :
    Option Fault → List Call → σ → Prop
  | finished {t : σ} : host.Settles caller planned s t → Ending host caller planned s none planned t
  | exhausted {done rest : List Call} {t : σ} (r : Refusal) :
      planned = done ++ rest → host.Settles caller done s t →
      Ending host caller planned s (some (.refused r)) done t
  | stopped {done rest : List Call} {c : Call} {t u : σ} {e : Fault} :
      planned = done ++ c :: rest → host.Settles caller done s t →
      host.invoke caller c t = (.error e, u) →
      Ending host caller planned s (some e) (done ++ [c]) u

theorem Ending.cons {host : Host σ} {caller : Bytes} {planned handed : List Call} {s t u : σ}
    {c : Call} {fault : Option Fault} (h : host.invoke caller c s = (.ok (), t))
    (hrest : Ending host caller planned t fault handed u) :
    Ending host caller (c :: planned) s fault (c :: handed) u := by
  cases hrest with
  | finished settles => exact .finished (.cons h settles)
  | exhausted r split settles =>
    exact .exhausted r (by rw [split, List.cons_append]) (.cons h settles)
  | stopped split settles fails =>
    exact .stopped (by rw [split, List.cons_append]) (.cons h settles) fails

theorem runSteps_ending (host : Host σ) (caller : Bytes) (steps : List Step) {m : Meter} (s : σ)
    (hm : m.Counting) :
    Ending host caller (stepCalls steps) s (runSteps host caller steps m s).fault
      (runSteps host caller steps m s).handed (runSteps host caller steps m s).host := by
  induction steps generalizing m s with
  | nil => exact .finished .nil
  | cons step rest ih =>
    cases step with
    | charge units label =>
      obtain ⟨hnext, hcharge⟩ := hm.charge units label
      rcases hc : m.charge (.int units) label with ⟨outcome, next⟩
      rw [hc] at hnext hcharge
      rcases hcharge with hok | ⟨r, herror⟩
      · cases hok
        simp only [runSteps, hc, stepCalls_charge]
        exact ih s hnext
      · cases herror
        simp only [runSteps, hc, stepCalls_charge]
        exact .exhausted r (List.nil_append _).symm .nil
    | call c =>
      rcases hc : host.invoke caller c s with ⟨answer, t⟩
      cases answer with
      | ok u =>
        simp only [runSteps, hc, stepCalls_call]
        exact (ih t hm).cons hc
      | error e =>
        simp only [runSteps, hc, stepCalls_call]
        have hsplit : c :: stepCalls rest = [] ++ c :: stepCalls rest := rfl
        exact .stopped hsplit .nil hc

/-- A host that answers well whenever another one does takes its part in a run without a fault. -/
theorem runSteps_follow {host : Host σ} {other : Host τ} {caller : Bytes} {R : σ → τ → Prop}
    (hR : ∀ {c : Call} {s s' : σ} {t : τ}, R s t → host.invoke caller c s = (.ok (), s') →
      ∃ t', other.invoke caller c t = (.ok (), t') ∧ R s' t')
    (steps : List Step) (m : Meter) {s : σ} {t : τ} (h : R s t)
    (hfault : (runSteps host caller steps m s).fault = none) :
    (runSteps other caller steps m t).fault = none ∧
      (runSteps other caller steps m t).meter = (runSteps host caller steps m s).meter ∧
      R (runSteps host caller steps m s).host (runSteps other caller steps m t).host := by
  induction steps generalizing m s t with
  | nil => exact ⟨rfl, rfl, h⟩
  | cons step rest ih =>
    cases step with
    | charge units label =>
      rcases hc : m.charge (.int units) label with ⟨outcome, next⟩
      cases outcome with
      | ok u =>
        simp only [runSteps, hc] at hfault ⊢
        exact ih next h hfault
      | error e => simp [runSteps, hc] at hfault
    | call c =>
      rcases hc : host.invoke caller c s with ⟨answer, s'⟩
      cases answer with
      | ok u =>
        obtain ⟨t', ht, h'⟩ := hR h hc
        simp only [runSteps, hc, ht] at hfault ⊢
        exact ih m h' hfault
      | error e => simp [runSteps, hc] at hfault

/-- A host that gives, on the images of states, the answers of another one and the images of the
states after them. -/
def Host.Image (host : Host σ) (f : σ → τ) (other : Host τ) : Prop :=
  ∀ caller c s, other.invoke caller c (f s) =
    ((host.invoke caller c s).1, f (host.invoke caller c s).2)

theorem Host.Image.runSteps {host : Host σ} {other : Host τ} {f : σ → τ}
    (h : host.Image f other) (caller : Bytes) (steps : List Step) (m : Meter) (s : σ) :
    let run := Settlement.runSteps host caller steps m s
    Settlement.runSteps other caller steps m (f s) =
      ⟨run.fault, run.handed, run.meter, f run.host⟩ := by
  induction steps generalizing m s with
  | nil => rfl
  | cons step rest ih =>
    cases step with
    | charge units label =>
      rcases hc : m.charge (.int units) label with ⟨outcome, next⟩
      cases outcome with
      | ok u =>
        simp only [Settlement.runSteps, hc]
        exact ih next s
      | error e => simp only [Settlement.runSteps, hc]
    | call c =>
      have himage := h caller c s
      rcases hc : host.invoke caller c s with ⟨answer, t⟩
      rw [hc] at himage
      cases answer with
      | ok u =>
        simp only [Settlement.runSteps, hc, himage, ih m t]
      | error e => simp only [Settlement.runSteps, hc, himage]

end Settlement
