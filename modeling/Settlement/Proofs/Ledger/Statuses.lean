import Settlement.Proofs.Ledger.Transaction
import Settlement.Proofs.Program.Prepared
import Settlement.Proofs.Validation.Refusals

/-! The status of an aborted instruction. What aborts it on a ledger is a refusal or an answer of
the ledger, and the status of such a signal is never that of an instruction that has settled. -/

namespace Settlement

open Outcome

/-- A signal of one of the classes that the program and the ledger give. -/
def Signal.Classed : Signal → Prop
  | .other .. => False
  | _ => True

theorem Signal.Classed.status_ne_ok {s : Signal} (h : s.Classed) : s.status ≠ Text.of "ok" := by
  cases s with
  | host kind message => cases kind <;> exact of_decide_eq_true rfl
  | domain code message => cases code <;> exact of_decide_eq_true rfl
  | external program detail => exact of_decide_eq_true rfl
  | other code message => exact h.elim

theorem Refusal.signal_classed (r : Refusal) : r.signal.Classed := by
  rw [signal]
  split <;> trivial

/-- An outcome that is a classed signal if it is a signal at all. -/
def Outcome.Classed {α : Type} (x : Outcome α) : Prop := ∀ s, x = .error (.signal s) → s.Classed

namespace Outcome.Classed

variable {α β : Type} {x : Outcome α} {f : α → Outcome β}

theorem ok (a : α) : Classed (.ok a) := fun _ h => by cases h

theorem fault {e : Fault} (h : e.signal? = none) : Classed (.error e : Outcome α) := by
  rintro s ⟨⟩
  cases h

theorem refuse (r : Refusal) : Classed (Settlement.refuse r : Outcome α) := by
  rintro s ⟨⟩
  exact r.signal_classed

theorem rejection (c : Call) (reason : String) :
    Classed (.error (Ledger.rejection c reason) : Outcome α) := by
  rintro s ⟨⟩
  trivial

theorem bind (hx : Classed x) (hf : ∀ a, Classed (f a)) : Classed (x >>= f) := by
  intro s h
  rcases bind_eq_error.1 h with h | ⟨a, -, h⟩
  · exact hx s h
  · exact hf a s h

theorem map {g : α → β} (hx : Classed x) : Classed (x.map g) := by
  cases x with
  | ok a => exact .ok _
  | error e =>
    rintro s ⟨⟩
    exact hx s rfl

theorem guard {p : Prop} [Decidable p] {e : Fault} (he : Classed (.error e : Outcome α))
    (hx : Classed x) : Classed (if p then .error e else x) := by
  by_cases hp : p
  · rw [if_pos hp]
    exact he
  · rw [if_neg hp]
    exact hx

end Outcome.Classed

/-! Values and accounts. -/

theorem Json.Value.compute_classed (f : Number → Number → Option Number) (a b : Json.Value) :
    Classed (compute f a b) := by
  rw [compute]
  split
  · split
    · exact .ok _
    · exact .fault rfl
  · exact .fault rfl

theorem Json.Value.less_int_classed (v : Json.Value) (n : Int) : Classed (v.less (.int n)) := by
  rw [less]
  · split
    · exact .ok _
    · exact .fault rfl
  all_goals simp

theorem Json.Value.wholeOr_classed {e : Fault} (h : e.signal? = none) (v : Json.Value) :
    Classed (v.wholeOr e) := by
  rw [wholeOr]
  split
  · exact .ok _
  · exact .fault h

theorem Mint.withSupply_classed (data : Bytes) (supply : Int) :
    Classed (Mint.withSupply data supply) := by
  refine .bind ?_ fun _ => .guard (.fault rfl) (.ok _)
  rw [Field.unsigned]
  split
  · exact .ok _
  · exact .fault rfl

theorem TokenAccount.withAmount_classed (data : Bytes) (amount : Int) :
    Classed (TokenAccount.withAmount data amount) := by
  refine .bind ?_ fun _ => .ok _
  rw [Field.word]
  split
  · exact .ok _
  · exact .fault rfl

/-! The ledger. -/

namespace Ledger

section Changes

variable {c : Call} {n : Int}

theorem debitCompressed_classed (hn : c.amount = .int n) (owner : Bytes) (l : Ledger) :
    Classed (debitCompressed c owner l) := by
  rw [debitCompressed, hn]
  refine .bind (Json.Value.less_int_classed _ _) fun _ => .guard (.rejection _ _) ?_
  exact .bind (Json.Value.compute_classed _ _ _) fun _ => .ok _

theorem creditCompressed_classed (c : Call) (owner : Bytes) (l : Ledger) :
    Classed (creditCompressed c owner l) :=
  .bind (Json.Value.compute_classed _ _ _) fun _ => .ok _

theorem adjustSupply_classed (mint : Bytes) (change : Json.Value) (l : Ledger) :
    Classed (l.adjustSupply mint change) := by
  rw [adjustSupply]
  split
  · exact .ok _
  · refine .bind (.guard (.fault rfl) (.ok _)) fun _ => ?_
    refine .bind (Json.Value.compute_classed _ _ _) fun _ => ?_
    refine .bind (Json.Value.wholeOr_classed rfl _) fun _ => ?_
    exact .bind (Mint.withSupply_classed _ _) fun _ => .ok _

theorem reduceSupply_classed (hn : c.amount = .int n) (mint : Bytes) (l : Ledger) :
    Classed (reduceSupply c mint l) := by
  rw [reduceSupply_int hn]
  exact adjustSupply_classed _ _ _

theorem debitToken_classed (hn : c.amount = .int n) (key mint owner : Bytes) (l : Ledger) :
    Classed (debitToken c key mint owner l) := by
  rw [debitToken, hn]
  split
  · exact .rejection _ _
  · refine .bind (.guard (.fault rfl) (.ok _)) fun _ => ?_
    refine .guard (.rejection _ _) (.guard (.rejection _ _) ?_)
    refine .bind (Json.Value.less_int_classed _ _) fun _ => .guard (.rejection _ _) ?_
    refine .bind (Json.Value.compute_classed _ _ _) fun _ => ?_
    refine .bind (Json.Value.wholeOr_classed rfl _) fun _ => ?_
    exact .bind (TokenAccount.withAmount_classed _ _) fun _ => .ok _

theorem inOrder_classed {cs : List (Ledger → Outcome Ledger)}
    (hcs : ∀ change ∈ cs, ∀ l, Classed (change l)) (l : Ledger) : Classed (inOrder cs l).1 := by
  induction cs generalizing l with
  | nil => exact .ok _
  | cons change rest ih =>
    have hfirst := hcs change List.mem_cons_self l
    rw [inOrder]
    cases hchange : change l with
    | ok next => exact ih (fun c hc => hcs c (List.mem_cons_of_mem _ hc)) next
    | error e =>
      rintro s ⟨⟩
      exact hfirst s hchange

theorem changes_classed (hc : c.Prepared n) : ∃ cs, changes c = .ok cs ∧
    ∀ change ∈ cs, ∀ l, Classed (change l) := by
  cases hc with
  | transfer hkind haccounts hn =>
    refine ⟨_, changes_transfer hkind haccounts, ?_⟩
    simp only [List.forall_mem_cons]
    exact ⟨debitCompressed_classed hn _, creditCompressed_classed c _, nofun⟩
  | compressedBurn hkind haccounts hn =>
    refine ⟨_, changes_compressedBurn hkind haccounts, ?_⟩
    simp only [List.forall_mem_cons]
    exact ⟨debitCompressed_classed hn _, reduceSupply_classed hn _, nofun⟩
  | tokenBurn hkind haccounts hn =>
    refine ⟨_, changes_tokenBurn hkind haccounts, ?_⟩
    simp only [List.forall_mem_cons]
    exact ⟨debitToken_classed hn _ _ _, reduceSupply_classed hn _, nofun⟩

theorem authorize_classed (l : Ledger) (caller : Bytes) (c : Call) :
    Classed (l.authorize caller c) := by
  rw [authorize]
  refine .guard (.refuse _) (.bind ?_ fun _ => .guard (.rejection _ _) ?_)
  · rw [signedKeys]
    split
    · exact .ok _
    · exact .rejection _ _
  · split
    · rintro s ⟨⟩
      trivial
    · exact .ok _

theorem invoke_classed (hc : c.Prepared n) (caller : Bytes) (l : Ledger) :
    Classed (l.invoke caller c).1 := by
  have hinvoked := invoke_invoked caller c l
  obtain ⟨cs, hcs, hclassed⟩ := changes_classed hc
  generalize l.invoke caller c = answer at hinvoked ⊢
  cases hinvoked with
  | refused hauth =>
    intro s h
    exact authorize_classed l caller c s (hauth.trans h)
  | malformed hchanges =>
    rw [hcs] at hchanges
    cases hchanges
  | @failed _ e t hchanges hfailed =>
    rw [hcs] at hchanges
    cases hchanges
    intro s h
    have hrun := inOrder_classed hclassed l.counted s
    rw [hfailed] at hrun
    exact hrun h
  | applied => exact .ok _

end Changes

end Ledger

/-! Scripts. -/

namespace Script

variable {α β : Type}

def Classed (s : Script α) : Prop := Outcome.Classed s.outcome

theorem Refusing.classed {s : Script α} (h : s.Refusing) : s.Classed := by
  intro signal hsignal
  obtain ⟨r, hr⟩ := h _ hsignal
  cases hr
  exact r.signal_classed

theorem Classed.bind {s : Script α} {f : α → Script β} (hs : s.Classed)
    (hf : ∀ a, (f a).Classed) : (s >>= f).Classed := by
  change Outcome.Classed (Script.bind s f).outcome
  cases houtcome : s.outcome with
  | ok a =>
    simp only [Script.bind, houtcome]
    exact hf a
  | error e =>
    simp only [Script.bind, houtcome]
    rintro signal ⟨⟩
    exact hs signal houtcome

theorem Classed.after {s : Script α} {f : α → Script β} (hs : s.Refusing)
    (hf : ∀ a, (f a).Classed) : (s >>= f).Classed :=
  .bind hs.classed hf

theorem attempt_classed {r : Outcome α} (h : Outcome.Classed r) : (attempt r).Classed := h

end Script

open Script

theorem Validation.canonicalIdentity_classed (rules : Rules) (view : AccountView) (i : Identity)
    (role : Role) : (canonicalIdentity rules view i role).Classed := by
  have hfind : Outcome.Classed (derived (i.find rules.programs.settlement)) := by
    cases i.find rules.programs.settlement with
    | ok found => exact .ok _
    | error d => exact .fault rfl
  refine .bind (attempt_classed hfind) fun _ => .after (.require _ _) fun _ => ?_
  exact (Refusing.pure _).classed

open Validation in
theorem OrganizationBurn.validate_classed (rules : Rules) (accounts : List AccountView)
    (data : Bytes) : (validate rules accounts data).Classed := by
  refine .after (.charge _ _) fun _ => ?_
  split
  · refine .after (record_refusing _ _) fun _ => .after (.require _ _) fun _ => ?_
    refine .after (.charge _ _) fun _ => .after (authority_refusing _ _ _) fun _ => ?_
    refine .after (.require _ _) fun _ => .after (.charge _ _) fun _ => ?_
    refine .after (.check _) fun burn => .after (.charge _ _) fun _ => ?_
    refine .bind (canonicalIdentity_classed _ _ _ _) fun _ => Refusing.classed ?_
    refine .bind (.charge _ _) fun _ => .bind (mint_refusing _ _ _) fun _ => ?_
    refine .bind (.charge _ _) fun _ => .bind (.require _ _) fun _ => ?_
    refine .bind (.require _ _) fun _ => .bind (.charge _ _) fun _ => ?_
    exact .bind (.require _ _) fun _ => .bind (.check _) fun _ => .pure _
  · exact (Refusing.refused _).classed

theorem Policy.allocate_classed (p : Policy) (operation : Json.Value) (total : Int) :
    Outcome.Classed (p.allocate operation (.int total)) := by
  rw [allocate_int]
  refine .guard (.refuse _) ?_
  split
  · exact .refuse _
  · exact .guard (.fault rfl) (.guard (.refuse _) (.guard (.refuse _) (.ok _)))

theorem Operation.script_classed (operation : Operation) (rules : Rules)
    (accounts : List AccountView) (data : Bytes) :
    (operation.script rules accounts data).Classed := by
  cases operation with
  | splitTransfer =>
    refine .after (SplitTransfer.validate_refusing rules accounts data) fun v => ?_
    refine .after (.charge _ _) fun _ => .bind (attempt_classed (Policy.allocate_classed _ _ _)) ?_
    exact fun _ => .after (.issue _) fun _ => (Refusing.pure _).classed
  | directBurn =>
    refine .after (DirectBurn.validate_refusing rules accounts data) fun v => ?_
    exact .after (.issue _) fun _ => (Refusing.pure _).classed
  | organizationBurn =>
    refine .bind (OrganizationBurn.validate_classed rules accounts data) fun v => ?_
    exact .after (.issue _) fun _ => (Refusing.pure _).classed

/-! Instructions. -/

theorem planned_prepared (rules : Rules) (accounts : List AccountView) (data : Bytes) :
    ∀ c ∈ planned rules accounts data, ∃ n : Int, c.Prepared n := by
  intro c hc
  have plan := plan_planned rules accounts data
  generalize planned rules accounts data = calls at hc plan
  cases plan with
  | validated validated =>
    obtain ⟨n, hprepared, -⟩ := validated.prepared c hc
    exact ⟨n, hprepared⟩
  | rejected => cases hc

/-- A run on a ledger that ends with a signal is out of compute, or it is the ledger that has failed
the call, or the script ends so. -/
theorem Ledger.run_classed {caller : Bytes} {script : Script Settled} {m : Meter} {l : Ledger}
    (hm : m.Counting) (hcalls : ∀ c ∈ script.calls, ∃ n : Int, c.Prepared n)
    (hscript : script.Classed) :
    Outcome.Classed ((runSteps host caller script.steps m l).outcome script) := by
  have ending := runSteps_ending host caller script.steps l hm
  rw [← Script.calls_eq_stepCalls] at ending
  generalize runSteps host caller script.steps m l = run at ending
  rw [Run.outcome]
  rcases run with ⟨fault, handed, meter, t⟩
  simp only at ending ⊢
  cases ending with
  | finished => exact hscript
  | exhausted r => exact .refuse r
  | @stopped _ _ c t u e split _ fails =>
    have hmem : c ∈ script.calls := by
      rw [split]
      exact List.mem_append_right _ List.mem_cons_self
    obtain ⟨n, hprepared⟩ := hcalls c hmem
    intro s h
    have hclassed := invoke_classed hprepared caller t s
    have hanswer : (t.invoke caller c).1 = .error e := congrArg Prod.fst fails
    rw [hanswer] at hclassed
    exact hclassed (by rw [Except.error.inj h])

theorem Program.process_classed (p : Program) (accounts : List AccountView) (data : Bytes)
    (metrics : Option Metrics) (l : Ledger) :
    Outcome.Classed (p.process Ledger.host accounts data metrics l).outcome := by
  cases hroute : Operation.route data with
  | error r =>
    simp only [process, hroute, rejected]
    exact .refuse r
  | ok routed =>
    obtain ⟨operation, payload⟩ := routed
    rcases hbase : (Meter.start (p.budget operation)).charge (.int Cost.baseInstruction)
      (Text.of "base_instruction") with ⟨base, m⟩
    simp only [process, hroute, hbase]
    cases base with
    | error e =>
      rcases Meter.charge_start_error hbase with rfl | ⟨r, rfl⟩
      · exact .fault rfl
      · exact .refuse r
    | ok u =>
      have hcalls := planned_prepared p.rules accounts data
      simp only [planned, hroute] at hcalls
      rw [conclude_outcome]
      exact .map (Ledger.run_classed (Meter.counting_of_charge_start hbase) hcalls
        (operation.script_classed p.rules accounts payload))

end Settlement
