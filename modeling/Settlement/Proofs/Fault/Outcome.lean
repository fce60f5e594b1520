import Settlement.Fault.Basic

/-! Opening outcomes: a step that fails ends what follows it, and a guard is passed only if its
condition does not hold. -/

namespace Settlement.Outcome

variable {ε α β : Type}

instance decEq [DecidableEq ε] [DecidableEq α] : DecidableEq (Except ε α)
  | .ok a, .ok b => decidable_of_iff (a = b) (by simp only [Except.ok.injEq])
  | .error d, .error e => decidable_of_iff (d = e) (by simp only [Except.error.injEq])
  | .ok _, .error _ | .error _, .ok _ => isFalse nofun

theorem ok_bind (a : α) (f : α → Except ε β) : (Except.ok a >>= f) = f a := rfl

theorem error_bind (e : ε) (f : α → Except ε β) :
    ((Except.error e : Except ε α) >>= f) = .error e := rfl

theorem bind_eq_ok {x : Except ε α} {f : α → Except ε β} {b : β} :
    (x >>= f) = .ok b ↔ ∃ a, x = .ok a ∧ f a = .ok b := by
  cases x with
  | ok a => simp only [ok_bind, Except.ok.injEq, exists_eq_left']
  | error e => simp only [error_bind, reduceCtorEq, false_and, exists_false]

theorem bind_eq_error {x : Except ε α} {f : α → Except ε β} {e : ε} :
    (x >>= f) = .error e ↔ x = .error e ∨ ∃ a, x = .ok a ∧ f a = .error e := by
  cases x with
  | ok a => simp only [ok_bind, reduceCtorEq, false_or, Except.ok.injEq, exists_eq_left']
  | error e' =>
    simp only [error_bind, Except.error.injEq, reduceCtorEq, false_and, exists_false, or_false]

theorem guard_eq_ok {p : Prop} [Decidable p] {e : ε} {x : Except ε α} {a : α} :
    (if p then .error e else x) = .ok a ↔ ¬ p ∧ x = .ok a := by
  by_cases h : p
  · simp only [h, if_true, reduceCtorEq, not_true_eq_false, false_and]
  · simp only [h, if_false, not_false_eq_true, true_and]

theorem guard_eq_error {p : Prop} [Decidable p] {e e' : ε} {x : Except ε α} :
    (if p then .error e else x) = .error e' ↔ p ∧ e = e' ∨ ¬ p ∧ x = .error e' := by
  by_cases h : p
  · simp only [h, if_true, Except.error.injEq, true_and, not_true_eq_false, false_and, or_false]
  · simp only [h, if_false, false_and, not_false_eq_true, true_and, false_or]

variable {g : β → α}

theorem map_bind {γ : Type} (x : Except ε γ) (f : γ → Except ε β) :
    (x >>= f).map g = x >>= fun c => (f c).map g := by
  cases x <;> rfl

theorem map_pure (b : β) : (pure b : Except ε β).map g = pure (g b) := rfl

theorem map_guard {p : Prop} [Decidable p] {e : ε} {x : Except ε β} :
    (if p then .error e else x).map g = if p then .error e else x.map g := by
  by_cases h : p
  · simp only [h, if_true]
    rfl
  · simp only [h, if_false]

theorem forM_eq_ok {f : α → Except ε Unit} {xs : List α} {u : Unit} :
    xs.forM f = .ok u ↔ ∀ x ∈ xs, f x = .ok () := by
  induction xs with
  | nil => simp [List.forM, pure, Except.pure]
  | cons x xs ih =>
    change (f x >>= fun _ => xs.forM f) = .ok u ↔ _
    rw [bind_eq_ok]
    simp only [ih, List.mem_cons, forall_eq_or_imp]
    constructor
    · rintro ⟨_, hx, hxs⟩
      exact ⟨hx, hxs⟩
    · rintro ⟨hx, hxs⟩
      exact ⟨_, hx, hxs⟩

/-- Steps fail with the fault of the first one that does. -/
theorem forM_eq_error {f : α → Except ε Unit} {xs : List α} {e : ε} :
    xs.forM f = .error e ↔ ∃ before x after, xs = before ++ x :: after ∧
      (∀ y ∈ before, f y = .ok ()) ∧ f x = .error e := by
  constructor
  · intro h
    induction xs with
    | nil => cases h
    | cons x xs ih =>
      change (f x >>= fun _ => xs.forM f) = .error e at h
      rcases bind_eq_error.1 h with hx | ⟨u, hx, hxs⟩
      · exact ⟨[], x, xs, rfl, nofun, hx⟩
      · obtain ⟨before, y, after, rfl, hbefore, hy⟩ := ih hxs
        exact ⟨x :: before, y, after, rfl, List.forall_mem_cons.2 ⟨hx, hbefore⟩, hy⟩
  · rintro ⟨before, x, after, rfl, hbefore, hx⟩
    change forM (before ++ x :: after) f = .error e
    rw [List.forM_append]
    change (before.forM f >>= fun _ => f x >>= fun _ => after.forM f) = .error e
    have hfront : before.forM f = .ok () := forM_eq_ok.2 hbefore
    rw [hfront, ok_bind, hx, error_bind]

theorem exists_of_forM_eq_error {f : α → Except ε Unit} {xs : List α} {e : ε}
    (h : xs.forM f = .error e) : ∃ x ∈ xs, f x = .error e := by
  obtain ⟨before, x, after, rfl, -, hx⟩ := forM_eq_error.1 h
  exact ⟨x, List.mem_append_right _ List.mem_cons_self, hx⟩

theorem mapM_ok {f : α → Except ε β} {P : β → Prop} {xs : List α}
    (h : ∀ x ∈ xs, ∃ y, f x = .ok y ∧ P y) : ∃ ys, xs.mapM f = .ok ys ∧ ∀ y ∈ ys, P y := by
  induction xs with
  | nil => exact ⟨[], List.mapM_nil, fun y hy => by cases hy⟩
  | cons x xs ih =>
    obtain ⟨y, hy, hPy⟩ := h x List.mem_cons_self
    obtain ⟨ys, hys, hPys⟩ := ih fun z hz => h z (List.mem_cons_of_mem _ hz)
    refine ⟨y :: ys, ?_, List.forall_mem_cons.2 ⟨hPy, hPys⟩⟩
    simp only [List.mapM_cons, hy, hys, ok_bind]
    rfl

theorem mem_mapM_ok {f : α → Except ε β} {xs : List α} {ys : List β}
    (h : xs.mapM f = .ok ys) {z : β} : z ∈ ys ↔ ∃ x ∈ xs, f x = .ok z := by
  induction xs generalizing ys with
  | nil =>
    rw [List.mapM_nil] at h
    cases h
    simp only [List.not_mem_nil, false_and, exists_false]
  | cons x xs ih =>
    rw [List.mapM_cons] at h
    obtain ⟨y, hy, h⟩ := bind_eq_ok.1 h
    obtain ⟨ys', hys', h⟩ := bind_eq_ok.1 h
    cases h
    simp only [List.mem_cons, ih hys', exists_eq_or_imp, hy, Except.ok.injEq]
    exact or_congr_left eq_comm

/-- What a step keeps of each element, all the steps keep of the list. -/
theorem map_of_mapM_ok {γ : Type} {f : α → Except ε β} {g : α → γ} {k : β → γ}
    (hf : ∀ x y, f x = .ok y → k y = g x) {xs : List α} {ys : List β} (h : xs.mapM f = .ok ys) :
    ys.map k = xs.map g := by
  induction xs generalizing ys with
  | nil =>
    rw [List.mapM_nil] at h
    cases h
    rfl
  | cons x xs ih =>
    rw [List.mapM_cons] at h
    obtain ⟨y, hy, h⟩ := bind_eq_ok.1 h
    obtain ⟨ys', hys', h⟩ := bind_eq_ok.1 h
    cases h
    rw [List.map_cons, List.map_cons, hf x y hy, ih hys']

theorem exists_error_iff {x : Except ε α} : (∃ e, x = .error e) ↔ ∀ a, x ≠ .ok a := by
  cases x <;> simp

theorem exists_ok_of_isSome {x : Except ε α} (h : x.toOption.isSome = true) :
    ∃ a, x = .ok a := by
  cases x with
  | ok a => exact ⟨a, rfl⟩
  | error e => cases h

theorem eq_ok_of_isSome {x : Except ε α} (h : x.toOption.isSome = true) (default : α) :
    x = .ok (x.toOption.getD default) := by
  cases x with
  | ok a => rfl
  | error e => cases h

end Settlement.Outcome
