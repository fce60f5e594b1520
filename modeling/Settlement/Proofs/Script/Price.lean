import Settlement.Proofs.Script.Run

/-! What a script costs, and what a run of it adds to the meter. -/

namespace Settlement

def Step.price : Step → Nat
  | .charge units _ => units
  | .call _ => 0

def stepPrice (steps : List Step) : Nat := (steps.map Step.price).sum

theorem stepPrice_append (xs ys : List Step) :
    stepPrice (xs ++ ys) = stepPrice xs + stepPrice ys := by
  simp [stepPrice]

namespace Script

variable {α β : Type}

theorem cost_eq_stepPrice (s : Script α) : s.cost = stepPrice s.steps := by
  refine congrArg (fun price => (s.steps.map price).sum) (funext fun step => ?_)
  cases step <;> rfl

theorem cost_bind_of_ok {s : Script α} {f : α → Script β} {a : α} (h : s.outcome = .ok a) :
    (s >>= f).cost = s.cost + (f a).cost := by
  change (Script.bind s f).cost = _
  simp only [cost_eq_stepPrice, Script.bind, h, stepPrice_append]

theorem cost_bind_of_error {s : Script α} {f : α → Script β} {e : Fault}
    (h : s.outcome = .error e) : (s >>= f).cost = s.cost := by
  change (Script.bind s f).cost = _
  simp only [cost_eq_stepPrice, Script.bind, h]

/-- A script that costs a fixed number of units if it ends well, and else no more than these. -/
structure Priced (units : Nat) (s : Script α) : Prop where
  bounded : s.cost ≤ units
  full : ∀ a, s.outcome = .ok a → s.cost = units

namespace Priced

variable {m n : Nat} {s : Script α} {f : α → Script β}

theorem pure (a : α) : (Pure.pure a : Script α).Priced 0 := ⟨Nat.le_refl 0, fun _ _ => rfl⟩

theorem charge (units : Nat) (label : String) : (Script.charge units label).Priced units :=
  ⟨Nat.le_refl units, fun _ _ => rfl⟩

theorem attempt (r : Outcome α) : (Script.attempt r).Priced 0 := ⟨Nat.le_refl 0, fun _ _ => rfl⟩

theorem check (r : Except Refusal α) : (Script.check r).Priced 0 := by
  cases r with
  | ok a => exact pure a
  | error r => exact attempt (refuse r)

theorem require (condition : Bool) (r : Refusal) : (Script.require condition r).Priced 0 := by
  cases condition with
  | true => exact pure ()
  | false => exact attempt (refuse r)

theorem refused (n : Nat) (r : Refusal) : (Script.attempt (refuse r) : Script α).Priced n :=
  ⟨Nat.zero_le n, fun _ h => by cases h⟩

theorem issue (cs : List Call) : (Script.issue cs).Priced (cs.length * Cost.call) := by
  have hcost : (Script.issue cs).cost = cs.length * Cost.call := by
    rw [cost_eq_stepPrice]
    induction cs with
    | nil => rfl
    | cons c cs ih =>
      simp only [Script.issue, stepPrice, List.flatMap_cons, List.map_append, List.sum_append,
        List.length_cons, Nat.add_mul] at ih ⊢
      rw [ih]
      simp [Step.price, Nat.add_comm]
  exact ⟨Nat.le_of_eq hcost, fun _ _ => hcost⟩

theorem bind (hs : s.Priced m) (hf : ∀ a, (f a).Priced n) : (s >>= f).Priced (m + n) := by
  cases h : s.outcome with
  | ok a =>
    have hcost : (s >>= f).cost = m + (f a).cost := by
      rw [cost_bind_of_ok h, hs.full a h]
    refine ⟨?_, fun b hb => ?_⟩
    · have hle := (hf a).bounded
      omega
    · obtain ⟨a', ha', hb'⟩ := outcome_bind_eq_ok.1 hb
      rw [h] at ha'
      cases ha'
      rw [hcost, (hf a).full b hb']
  | error e =>
    have hcost : (s >>= f).cost = s.cost := cost_bind_of_error h
    refine ⟨?_, fun b hb => ?_⟩
    · have hle := hs.bounded
      omega
    · obtain ⟨a, ha, -⟩ := outcome_bind_eq_ok.1 hb
      rw [h] at ha
      cases ha

theorem of_sum (h : s.Priced m) (hsum : m = n) : s.Priced n := hsum ▸ h

/-- A part that costs nothing leaves the price to what follows it. -/
theorem free (hs : s.Priced 0) (hf : ∀ a, (f a).Priced n) : (s >>= f).Priced n := by
  have h := hs.bind hf
  rwa [Nat.zero_add] at h

end Priced
end Script

/-! Runs. -/

variable {σ : Type}

theorem Meter.charge_used {m : Meter} {n : Int} (hm : m.used = .int n) (units : Nat)
    (label : Text) : (m.charge (.int units) label).2.used = .int (n + units) := by
  simp only [Meter.charge, hm, Number.add?_int]

theorem runSteps_used (host : Host σ) (caller : Bytes) (steps : List Step) {m : Meter} (s : σ)
    {n : Int} (hm : m.used = .int n) :
    ∃ units : Nat, (runSteps host caller steps m s).meter.used = .int (n + units) ∧
      units ≤ stepPrice steps ∧
      ((runSteps host caller steps m s).fault = none → units = stepPrice steps) := by
  induction steps generalizing m s n with
  | nil => exact ⟨0, by simp [runSteps, hm], Nat.le_refl 0, fun _ => rfl⟩
  | cons step rest ih =>
    cases step with
    | charge units label =>
      have hused := m.charge_used hm units label
      have hprice : stepPrice (.charge units label :: rest) = units + stepPrice rest := by
        simp [stepPrice, Step.price]
      rcases hc : m.charge (.int units) label with ⟨answer, next⟩
      rw [hc] at hused
      cases answer with
      | ok u =>
        obtain ⟨more, hmore, hle, hfull⟩ := ih s hused
        refine ⟨units + more, ?_, by omega, fun hfault => ?_⟩
        · simp only [runSteps, hc, hmore]
          congr 1
          omega
        · simp only [runSteps, hc] at hfault
          rw [hprice, hfull hfault]
      | error e =>
        refine ⟨units, ?_, by omega, fun hfault => ?_⟩
        · simp only [runSteps, hc]
          exact hused
        · simp only [runSteps, hc, reduceCtorEq] at hfault
    | call c =>
      have hprice : stepPrice (.call c :: rest) = stepPrice rest := by
        simp [stepPrice, Step.price]
      rw [hprice]
      rcases hc : host.invoke caller c s with ⟨answer, t⟩
      cases answer with
      | ok u =>
        simp only [runSteps, hc]
        exact ih t hm
      | error e =>
        refine ⟨0, ?_, Nat.zero_le _, fun hfault => ?_⟩
        · simp [runSteps, hc, hm]
        · simp only [runSteps, hc, reduceCtorEq] at hfault

end Settlement
