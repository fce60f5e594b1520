import Settlement.Program.Settle

/-! What the parts of a script add to its outcome and to its calls. A script is silent if it makes
no call; everything before the calls of an operation is silent. -/

namespace Settlement

def Step.call? : Step → Option Call
  | .call c => some c
  | .charge .. => none

def stepCalls (steps : List Step) : List Call := steps.filterMap Step.call?

@[simp] theorem stepCalls_charge (units : Nat) (label : Text) (steps : List Step) :
    stepCalls (.charge units label :: steps) = stepCalls steps := rfl

@[simp] theorem stepCalls_call (c : Call) (steps : List Step) :
    stepCalls (.call c :: steps) = c :: stepCalls steps := rfl

theorem stepCalls_append (xs ys : List Step) :
    stepCalls (xs ++ ys) = stepCalls xs ++ stepCalls ys :=
  List.filterMap_append

namespace Script

variable {α β : Type}

theorem calls_eq_stepCalls (s : Script α) : s.calls = stepCalls s.steps := by
  refine congrArg (List.filterMap · s.steps) (funext fun step => ?_)
  cases step <;> rfl

/-! Outcomes. -/

@[simp] theorem outcome_pure (a : α) : (Pure.pure a : Script α).outcome = .ok a := rfl

@[simp] theorem outcome_charge (units : Nat) (label : String) :
    (charge units label).outcome = .ok () := rfl

@[simp] theorem outcome_attempt (r : Outcome α) : (attempt r).outcome = r := rfl

@[simp] theorem outcome_issue (cs : List Call) : (issue cs).outcome = .ok () := rfl

theorem outcome_check_eq_ok {r : Except Refusal α} {a : α} :
    (check r).outcome = .ok a ↔ r = .ok a := by
  cases r with
  | ok b => simp [check, Script.pure]
  | error e => simp [check, refuse]

theorem outcome_require_eq_ok {condition : Bool} {r : Refusal} {u : Unit} :
    (require condition r).outcome = .ok u ↔ condition = true := by
  cases condition <;> simp [require, refuse, Script.pure]

theorem outcome_bind_eq_ok {s : Script α} {f : α → Script β} {b : β} :
    (s >>= f).outcome = .ok b ↔ ∃ a, s.outcome = .ok a ∧ (f a).outcome = .ok b := by
  change (Script.bind s f).outcome = .ok b ↔ _
  cases h : s.outcome with
  | ok a => simp [Script.bind, h]
  | error e => simp [Script.bind, h]

theorem outcome_bind_of_ok {s : Script α} {f : α → Script β} {a : α} (h : s.outcome = .ok a) :
    (s >>= f).outcome = (f a).outcome := by
  change (Script.bind s f).outcome = _
  simp only [Script.bind, h]

theorem outcome_bind_of_error {s : Script α} {f : α → Script β} {e : Fault}
    (h : s.outcome = .error e) : (s >>= f).outcome = .error e := by
  change (Script.bind s f).outcome = _
  simp only [Script.bind, h]

/-! Calls. -/

theorem calls_bind_of_ok {s : Script α} {f : α → Script β} {a : α} (h : s.outcome = .ok a) :
    (s >>= f).calls = s.calls ++ (f a).calls := by
  change (Script.bind s f).calls = _
  simp only [calls_eq_stepCalls, Script.bind, h, stepCalls_append]

theorem calls_bind_of_error {s : Script α} {f : α → Script β} {e : Fault}
    (h : s.outcome = .error e) : (s >>= f).calls = s.calls := by
  change (Script.bind s f).calls = _
  simp only [calls_eq_stepCalls, Script.bind, h]

theorem calls_issue (cs : List Call) : (issue cs).calls = cs := by
  rw [calls_eq_stepCalls]
  induction cs with
  | nil => rfl
  | cons c cs ih =>
    simp only [issue] at ih
    simp only [issue, List.flatMap_cons, List.cons_append, List.nil_append, stepCalls_charge,
      stepCalls_call, ih]

def Silent (s : Script α) : Prop := s.calls = []

namespace Silent

@[simp] theorem pure (a : α) : (Pure.pure a : Script α).Silent := rfl

@[simp] theorem charge (units : Nat) (label : String) : (Script.charge units label).Silent := rfl

@[simp] theorem attempt (r : Outcome α) : (Script.attempt r).Silent := rfl

@[simp] theorem check (r : Except Refusal α) : (Script.check r).Silent := by
  cases r <;> rfl

@[simp] theorem require (condition : Bool) (r : Refusal) : (Script.require condition r).Silent := by
  cases condition <;> rfl

theorem bind {s : Script α} {f : α → Script β} (hs : s.Silent) (hf : ∀ a, (f a).Silent) :
    (s >>= f).Silent := by
  cases h : s.outcome with
  | ok a => rw [Silent, calls_bind_of_ok h, hs, hf a, List.append_nil]
  | error e => rw [Silent, calls_bind_of_error h, hs]

end Silent

theorem calls_bind_of_silent {s : Script α} {f : α → Script β} {a : α} (hs : s.Silent)
    (h : s.outcome = .ok a) : (s >>= f).calls = (f a).calls := by
  rw [calls_bind_of_ok h, hs, List.nil_append]

end Script
end Settlement
