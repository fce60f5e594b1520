import Settlement.Proofs.Account.RecordCodec
import Settlement.Proofs.Address.Search
import Settlement.Proofs.Instruction.Memo
import Settlement.Proofs.Validation.Checks

/-! Conditions in their order. A validation is judged by a list of them: it succeeds if all hold, and
otherwise it ends with the refusal of the first one that does not. -/

namespace Settlement

open Outcome

/-- Something that is checked, with the code of all its refusals. -/
structure Condition where
  code : HostKind ⊕ ErrorCode
  check : Except Refusal Unit
  coded : ∀ r, check = .error r → r.code = code

namespace Condition

/-- A condition that is refused for one reason. -/
def demand (p : Prop) [Decidable p] (r : Refusal) : Condition where
  code := r.code
  check := if p then .ok () else .error r
  coded := by
    intro r' h
    split at h
    · cases h
    · rw [Except.error.inj h]

/-- The condition that something can be read. -/
def readable {α : Type} {code : HostKind ⊕ ErrorCode} (x : Except Refusal α)
    (h : ∀ r, x = .error r → r.code = code) : Condition where
  code := code
  check := x.map fun _ => ()
  coded := by
    intro r hr
    cases x with
    | ok a => cases hr
    | error r' =>
      cases hr
      exact h r rfl

def Holds (c : Condition) : Prop := c.check = .ok ()

instance (c : Condition) : Decidable c.Holds := inferInstanceAs (Decidable (c.check = .ok ()))

/-- Checks conditions up to the first that does not hold. -/
def judge (cs : List Condition) : Except Refusal Unit := cs.forM check

/-- The first condition that does not hold, and why. -/
def FirstBroken (cs : List Condition) (c : Condition) (r : Refusal) : Prop :=
  ∃ before after, cs = before ++ c :: after ∧ (∀ d ∈ before, d.Holds) ∧ c.check = .error r

theorem demand_holds {p : Prop} [Decidable p] {r : Refusal} : (demand p r).Holds ↔ p := by
  change (if p then .ok () else .error r : Except Refusal Unit) = .ok () ↔ p
  by_cases hp : p <;> simp [hp]

theorem readable_holds {α : Type} {code : HostKind ⊕ ErrorCode} {x : Except Refusal α}
    {h : ∀ r, x = .error r → r.code = code} : (readable x h).Holds ↔ ∃ a, x = .ok a := by
  change (x.map fun _ => ()) = .ok () ↔ _
  cases x <;> simp [Except.map]

theorem judge_demand {p : Prop} [Decidable p] (r : Refusal) (cs : List Condition) :
    judge (demand p r :: cs) = if p then judge cs else .error r := by
  change ((if p then .ok () else .error r : Except Refusal Unit) >>= fun _ => judge cs) = _
  by_cases hp : p
  · simp only [hp, if_true, ok_bind]
  · simp only [hp, if_false, error_bind]

theorem judge_append (cs ds : List Condition) :
    judge (cs ++ ds) = judge cs >>= fun _ => judge ds :=
  List.forM_append

theorem judge_eq_ok {cs : List Condition} : judge cs = .ok () ↔ ∀ c ∈ cs, c.Holds := forM_eq_ok

theorem judge_eq_error {cs : List Condition} {r : Refusal} :
    judge cs = .error r ↔ ∃ c, FirstBroken cs c r := by
  rw [judge, forM_eq_error]
  constructor
  · rintro ⟨before, c, after, h⟩
    exact ⟨c, before, after, h⟩
  · rintro ⟨c, before, after, h⟩
    exact ⟨before, c, after, h⟩

theorem FirstBroken.code {cs : List Condition} {c : Condition} {r : Refusal}
    (h : FirstBroken cs c r) : r.code = c.code := by
  obtain ⟨-, -, -, -, hc⟩ := h
  exact c.coded r hc

end Condition

open Condition

namespace Script

variable {α β : Type}

/-- A script that ends with a value if the conditions hold, and otherwise with the refusal of the
first that does not. -/
def Judged (s : Script α) (cs : List Condition) (a : α) : Prop :=
  s.outcome = match judge cs with
    | .ok () => .ok a
    | .error r => refuse r

namespace Judged

variable {s : Script α} {f : α → Script β} {cs ds : List Condition} {a : α} {b : β}

theorem pure (a : α) : (Pure.pure a : Script α).Judged [] a := rfl

theorem charge (units : Nat) (label : String) : (Script.charge units label).Judged [] () := rfl

theorem held {p : Prop} [Decidable p] (hp : p) (h : s.Judged cs a) (r : Refusal) :
    s.Judged (.demand p r :: cs) a := by
  rw [Judged, judge_demand, if_pos hp]
  exact h

theorem broken {p : Prop} [Decidable p] (hp : ¬ p) (r : Refusal) :
    (Script.attempt (refuse r)).Judged (.demand p r :: cs) a := by
  rw [Judged, judge_demand, if_neg hp]
  rfl

theorem require {p : Prop} [Decidable p] {condition : Bool} (h : condition = true ↔ p)
    (r : Refusal) : (Script.require condition r).Judged [.demand p r] () := by
  cases condition with
  | true => exact held (h.1 rfl) (pure ()) r
  | false => exact broken (fun hp => by cases h.2 hp) r

theorem check {code : HostKind ⊕ ErrorCode} {x : Except Refusal α}
    (h : ∀ r, x = .error r → r.code = code) (default : α) :
    (Script.check x).Judged [.readable x h] (x.toOption.getD default) := by
  cases x <;> rfl

theorem attempt {r : Outcome α} (h : r = .ok a) : (Script.attempt r).Judged [] a := by
  subst h
  exact pure a

/-- What follows a script may count on the conditions that the script was judged by. -/
theorem bind_held (hs : s.Judged cs a) (hf : (∀ c ∈ cs, c.Holds) → (f a).Judged ds b) :
    (s >>= f).Judged (cs ++ ds) b := by
  change (Script.bind s f).outcome = _
  rw [judge_append]
  rw [Judged] at hs
  cases hcs : judge cs with
  | ok u =>
    have hrest : (f a).outcome = _ := hf (judge_eq_ok.1 hcs)
    simp only [hcs] at hs
    simp only [Script.bind, hs, ok_bind]
    exact hrest
  | error r =>
    simp only [hcs] at hs
    simp only [Script.bind, hs, refuse, error_bind]

theorem bind (hs : s.Judged cs a) (hf : (f a).Judged ds b) : (s >>= f).Judged (cs ++ ds) b :=
  hs.bind_held fun _ => hf

theorem outcome_eq_ok (h : s.Judged cs a) {v : α} :
    s.outcome = .ok v ↔ (∀ c ∈ cs, c.Holds) ∧ v = a := by
  rw [h, ← judge_eq_ok]
  cases judge cs with
  | ok u => simp only [Except.ok.injEq, true_and, eq_comm]
  | error r => simp only [refuse, reduceCtorEq, false_and]

theorem outcome_eq_error (h : s.Judged cs a) {e : Fault} :
    s.outcome = .error e ↔ ∃ c r, FirstBroken cs c r ∧ r.code = c.code ∧ e = .refused r := by
  have hjudge : s.outcome = .error e ↔ ∃ r, judge cs = .error r ∧ e = .refused r := by
    rw [h]
    cases judge cs with
    | ok u => simp only [reduceCtorEq, false_and, exists_false]
    | error r => simp only [refuse, Except.error.injEq, exists_eq_left', eq_comm]
  rw [hjudge]
  constructor
  · rintro ⟨r, hr, he⟩
    obtain ⟨c, hc⟩ := judge_eq_error.1 hr
    exact ⟨c, r, hc, hc.code, he⟩
  · rintro ⟨c, r, hc, -, he⟩
    exact ⟨r, judge_eq_error.2 ⟨c, hc⟩, he⟩

end Judged
end Script

/-! The conditions of the shared checks. -/

namespace Validation

open Script

/-- The record that data of the right length holds. -/
def recorded (view : AccountView) : Record := (Record.decode view.data).toOption.getD .blank

theorem decode_judged (view : AccountView) : (check (Record.decode view.data)).Judged
    [.demand (view.data.length = Record.size) (.recordLength view.data.length)] (recorded view) := by
  by_cases hlength : view.data.length = Record.size
  · obtain ⟨record, hdecode, -⟩ := Record.encode_decode hlength
    refine .held hlength ?_ _
    rw [recorded, hdecode]
    exact .pure _
  · rw [Record.decode_of_length_ne hlength]
    exact .broken hlength _

theorem record_judged (rules : Rules) (view : AccountView) :
    (record rules view).Judged
      [.demand (view.data.length = Record.size) (.recordLength view.data.length),
        .demand (view.owner = rules.programs.settlement) .recordOwner,
        .demand (Identity.configRecord.address (recorded view).bump rules.programs.settlement =
          .ok view.key) .recordAddress,
        .demand ((recorded view).initialized = true) .notInitialized] (recorded view) := by
  refine .bind (.charge _ _) (.bind (decode_judged view) (.bind (.charge _ _) ?_))
  refine .bind (.require beq_iff_eq _) (.bind (.charge _ _) ?_)
  exact .bind (.require Identity.verify_eq_true_iff _) (.bind (.require Iff.rfl _) (.pure _))

theorem signer_judged (view : AccountView) (role : Role) :
    (signer view role).Judged [.demand (view.signer = true) (.unsigned role)] () :=
  .require Iff.rfl _

theorem authority_judged (view : AccountView) (key : Bytes) (role : Role) :
    (authority view key role).Judged
      [.demand (view.signer = true) (.unsigned role),
        .demand (view.key = key) (.wrongAuthority role)] () :=
  .bind (signer_judged view role) (.require beq_iff_eq _)

theorem identity_judged (rules : Rules) (view : AccountView) (i : Identity) (bump : UInt8)
    (role : Role) :
    (identity rules view i bump role).Judged
      [.demand (i.address bump rules.programs.settlement = .ok view.key) (.wrongIdentity role)]
      (i.seeds bump) :=
  .bind (.require Identity.verify_eq_true_iff _) (.pure _)

/-- Only the address with the highest bump will do, and the signer is that of this bump. -/
theorem canonicalIdentity_judged {rules : Rules} {i : Identity} {found : Bytes × UInt8}
    (h : i.find rules.programs.settlement = .ok found) (view : AccountView) (role : Role) :
    (canonicalIdentity rules view i role).Judged
      [.demand (i.Canonical rules.programs.settlement view.key) (.wrongIdentity role)]
      (i.seeds found.2) := by
  obtain ⟨address, bump⟩ := found
  have hfound : derived (i.find rules.programs.settlement) = .ok (address, bump) := by
    rw [h]
    rfl
  have hkey : (address == view.key) = true ↔ i.Canonical rules.programs.settlement view.key := by
    rw [beq_iff_eq, Identity.canonical_iff_find, h]
    simp
  exact .bind (.attempt hfound) (.bind (.require hkey _) (.pure _))

theorem memo_judged (memo : Text) : (check (Memo.check memo)).Judged
    [.demand (Memo.InGrammar memo) (.memoFormat memo)] () := by
  by_cases hmemo : Memo.InGrammar memo
  · have hok : Memo.check memo = .ok () := if_pos (Memo.isValid_iff_inGrammar.2 hmemo)
    rw [hok]
    exact .held hmemo (.pure ()) _
  · have hbad : Memo.check memo = .error (.memoFormat memo) :=
      if_neg fun hvalid => hmemo (Memo.isValid_iff_inGrammar.1 hvalid)
    rw [hbad]
    exact .broken hmemo _

theorem mint_judged (rules : Rules) (view : AccountView) (r : Record) :
    (mint rules view r).Judged
      [.demand (view.owner = rules.programs.token) .mintOwner,
        .demand (view.key = r.mint) .mintKey] () :=
  .bind (.require beq_iff_eq _) (.require beq_iff_eq _)

end Validation
end Settlement
