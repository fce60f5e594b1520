import Settlement.Proofs.Account.Token
import Settlement.Proofs.Script.Calls

/-! Failures of scripts. On the data of an instruction each step can only refuse: what it reads or
computes has been checked before, up to the division by the denominator of a share and the search
for the address of an organization. -/

namespace Settlement

namespace Script

variable {α β : Type}

/-- A script that fails with a refusal, if it fails. -/
def Refusing (s : Script α) : Prop := ∀ e, s.outcome = .error e → ∃ r, e = .refused r

namespace Refusing

theorem pure (a : α) : (Pure.pure a : Script α).Refusing := fun _ h => by cases h

theorem charge (units : Nat) (label : String) : (Script.charge units label).Refusing :=
  fun _ h => by cases h

theorem issue (cs : List Call) : (Script.issue cs).Refusing := fun _ h => by cases h

theorem refused (r : Refusal) : (Script.attempt (refuse r) : Script α).Refusing := by
  intro e h
  cases h
  exact ⟨r, rfl⟩

theorem check (r : Except Refusal α) : (Script.check r).Refusing := by
  cases r with
  | ok a => exact pure a
  | error r => exact refused r

theorem require (condition : Bool) (r : Refusal) : (Script.require condition r).Refusing := by
  cases condition with
  | true => exact pure ()
  | false => exact refused r

theorem attempt_ok {r : Outcome α} {a : α} (h : r = .ok a) : (Script.attempt r).Refusing := by
  subst h
  exact pure a

/-- What follows a script may count on how it ended. -/
theorem bind_ok {s : Script α} {f : α → Script β} (hs : s.Refusing)
    (hf : ∀ a, s.outcome = .ok a → (f a).Refusing) : (s >>= f).Refusing := by
  intro e h
  change (Script.bind s f).outcome = .error e at h
  cases hs' : s.outcome with
  | ok a =>
    simp only [Script.bind, hs'] at h
    exact hf a hs' e h
  | error e' =>
    simp only [Script.bind, hs'] at h
    cases h
    exact hs e hs'

theorem bind {s : Script α} {f : α → Script β} (hs : s.Refusing) (hf : ∀ a, (f a).Refusing) :
    (s >>= f).Refusing :=
  hs.bind_ok fun a _ => hf a

end Refusing
end Script

open Script

namespace Validation

theorem record_refusing (rules : Rules) (view : AccountView) : (record rules view).Refusing := by
  refine .bind (.charge _ _) fun _ => .bind (.check _) fun _ => .bind (.charge _ _) fun _ => ?_
  refine .bind (.require _ _) fun _ => .bind (.charge _ _) fun _ => .bind (.require _ _) fun _ => ?_
  exact .bind (.require _ _) fun _ => .pure _

theorem authority_refusing (view : AccountView) (key : Bytes) (role : Role) :
    (authority view key role).Refusing :=
  .bind (.require _ _) fun _ => .require _ _

theorem identity_refusing (rules : Rules) (view : AccountView) (i : Identity) (bump : UInt8)
    (role : Role) : (identity rules view i bump role).Refusing :=
  .bind (.require _ _) fun _ => .pure _

theorem canonicalIdentity_refusing {rules : Rules} {i : Identity} {found : Bytes × UInt8}
    (h : i.find rules.programs.settlement = .ok found) (view : AccountView) (role : Role) :
    (canonicalIdentity rules view i role).Refusing := by
  have hfound : derived (i.find rules.programs.settlement) = .ok found := by
    rw [h]
    rfl
  exact .bind (.attempt_ok hfound) fun _ => .bind (.require _ _) fun _ => .pure _

theorem mint_refusing (rules : Rules) (view : AccountView) (r : Record) :
    (mint rules view r).Refusing :=
  .bind (.require _ _) fun _ => .require _ _

end Validation

open Validation

theorem SplitTransfer.validate_refusing (rules : Rules) (accounts : List AccountView)
    (data : Bytes) : (validate rules accounts data).Refusing := by
  refine .bind (.charge _ _) fun _ => ?_
  split
  · refine .bind (record_refusing _ _) fun _ => .bind (.require _ _) fun _ => ?_
    refine .bind (.charge _ _) fun _ => .bind (authority_refusing _ _ _) fun _ => ?_
    refine .bind (.charge _ _) fun _ => .bind (.check _) fun _ => .bind (.charge _ _) fun _ => ?_
    refine .bind (identity_refusing _ _ _ _ _) fun _ => ?_
    refine .bind (identity_refusing _ _ _ _ _) fun _ => ?_
    refine .bind (identity_refusing _ _ _ _ _) fun _ => .bind (.charge _ _) fun _ => ?_
    refine .bind (mint_refusing _ _ _) fun _ => .bind (.charge _ _) fun _ => ?_
    refine .bind (.require _ _) fun _ => .bind (.charge _ _) fun _ => ?_
    exact .bind (.require _ _) fun _ => .bind (.require _ _) fun _ => .pure _
  · exact .refused _

theorem DirectBurn.validate_refusing (rules : Rules) (accounts : List AccountView)
    (data : Bytes) : (validate rules accounts data).Refusing := by
  refine .bind (.charge _ _) fun _ => ?_
  split
  · refine .bind (record_refusing _ _) fun _ => .bind (.require _ _) fun _ => ?_
    refine .bind (.charge _ _) fun _ => .bind (authority_refusing _ _ _) fun _ => ?_
    refine .bind (.require _ _) fun _ => .bind (.charge _ _) fun _ => .bind (.check _) fun _ => ?_
    refine .bind (.charge _ _) fun _ => .bind (mint_refusing _ _ _) fun _ => ?_
    refine .bind (.require _ _) fun _ => .bind_ok (.require _ _) fun _ hsize => ?_
    obtain ⟨token, htoken⟩ := TokenAccount.decode_of_size
      (of_decide_eq_true (outcome_require_eq_ok.1 hsize))
    refine .bind (.attempt_ok htoken) fun _ => .bind (.require _ _) fun _ => ?_
    refine .bind (.charge _ _) fun _ => .bind (.require _ _) fun _ => ?_
    refine .bind (.charge _ _) fun _ => .bind (.require _ _) fun _ => ?_
    refine .bind (.check _) fun _ => .bind (.charge _ _) fun _ => ?_
    exact .bind (.require _ _) fun _ => .pure _
  · exact .refused _

theorem OrganizationBurn.validate_refusing {rules : Rules} {data : Bytes}
    (h : ∀ burn, decode data = .ok burn →
      ∃ found, (Identity.organization burn.orgId).find rules.programs.settlement = .ok found)
    (accounts : List AccountView) : (validate rules accounts data).Refusing := by
  refine .bind (.charge _ _) fun _ => ?_
  split
  · refine .bind (record_refusing _ _) fun _ => .bind (.require _ _) fun _ => ?_
    refine .bind (.charge _ _) fun _ => .bind (authority_refusing _ _ _) fun _ => ?_
    refine .bind (.require _ _) fun _ => .bind (.charge _ _) fun _ => ?_
    refine .bind_ok (.check _) fun burn hburn => .bind (.charge _ _) fun _ => ?_
    obtain ⟨found, hfound⟩ := h burn (outcome_check_eq_ok.1 hburn)
    refine .bind (canonicalIdentity_refusing hfound _ _) fun _ => .bind (.charge _ _) fun _ => ?_
    refine .bind (mint_refusing _ _ _) fun _ => .bind (.charge _ _) fun _ => ?_
    refine .bind (.require _ _) fun _ => .bind (.require _ _) fun _ => ?_
    refine .bind (.charge _ _) fun _ => .bind (.require _ _) fun _ => ?_
    exact .bind (.check _) fun _ => .pure _
  · exact .refused _

/-! Shares. -/

/-- A policy whose shares have a denominator. -/
def Policy.Divides (p : Policy) : Prop := ∀ entry ∈ p, entry.2.denominator ≠ 0

theorem Policy.Divides.share {p : Policy} (hp : p.Divides) {operation : Json.Value} {share : Share}
    (h : p.share? operation = some share) : share.denominator ≠ 0 := by
  cases operation with
  | text t =>
    obtain ⟨entry, hentry, rfl⟩ := Option.map_eq_some_iff.1 h
    exact hp entry (List.mem_of_find?_eq_some hentry)
  | _ => cases h

end Settlement
