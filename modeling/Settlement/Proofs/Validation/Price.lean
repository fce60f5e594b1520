import Settlement.Proofs.Script.Price

/-! The prices of the operations. They depend on nothing but the operation: every stage has its
fixed cost, whatever it reads. -/

namespace Settlement

open Script

namespace Validation

theorem record_priced (rules : Rules) (view : AccountView) : (record rules view).Priced 1620 := by
  refine .of_sum (m := Cost.recordDecode + (Cost.accountCheck + (Cost.derivation + 0))) ?_
    (by decide)
  refine .bind (.charge _ _) fun _ => .free (.check _) fun _ => ?_
  refine .bind (.charge _ _) fun _ => .free (.require _ _) fun _ => ?_
  refine .bind (.charge _ _) fun _ => .free (.require _ _) fun _ => ?_
  exact .free (.require _ _) fun _ => .pure _

theorem authority_priced (view : AccountView) (key : Bytes) (role : Role) :
    (authority view key role).Priced 0 :=
  .free (.require _ _) fun _ => .require _ _

theorem identity_priced (rules : Rules) (view : AccountView) (i : Identity) (bump : UInt8)
    (role : Role) : (identity rules view i bump role).Priced 0 :=
  .free (.require _ _) fun _ => .pure _

theorem canonicalIdentity_priced (rules : Rules) (view : AccountView) (i : Identity) (role : Role) :
    (canonicalIdentity rules view i role).Priced 0 :=
  .free (.attempt _) fun _ => .free (.require _ _) fun _ => .pure _

theorem mint_priced (rules : Rules) (view : AccountView) (r : Record) :
    (mint rules view r).Priced 0 :=
  .free (.require _ _) fun _ => .require _ _

end Validation

open Validation

variable (rules : Rules) (accounts : List AccountView) (data : Bytes)

namespace SplitTransfer

theorem validate_priced : (validate rules accounts data).Priced 6310 := by
  refine .of_sum (m := 20 + (1620 + (20 + (70 + (4500 + (40 + (20 + (20 + 0)))))))) ?_ (by decide)
  refine .bind (.charge _ _) fun _ => ?_
  split
  · refine .bind (record_priced _ _) fun _ => .free (.require _ _) fun _ => ?_
    refine .bind (.charge _ _) fun _ => .free (authority_priced _ _ _) fun _ => ?_
    refine .bind (.charge _ _) fun _ => .free (.check _) fun _ => ?_
    refine .bind (.charge _ _) fun _ => .free (identity_priced _ _ _ _ _) fun _ => ?_
    refine .free (identity_priced _ _ _ _ _) fun _ => .free (identity_priced _ _ _ _ _) fun _ => ?_
    refine .bind (.charge _ _) fun _ => .free (mint_priced _ _ _) fun _ => ?_
    refine .bind (.charge _ _) fun _ => .free (.require _ _) fun _ => ?_
    refine .bind (.charge _ _) fun _ => .free (.require _ _) fun _ => ?_
    exact .free (.require _ _) fun _ => .pure _
  · exact .refused _ _

theorem script_priced : (script rules accounts data).Priced 8360 := by
  refine .of_sum (m := 6310 + (50 + (2000 + 0))) ?_ (by decide)
  refine .bind (validate_priced rules accounts data) fun v => .bind (.charge _ _) fun _ => ?_
  refine .free (.attempt _) fun allocation => ?_
  have hissue : (issue (v.calls allocation)).Priced 2000 :=
    (Priced.issue _).of_sum (by simp [Valid.calls, Cost.call])
  exact hissue.bind fun _ => .pure _

end SplitTransfer

namespace DirectBurn

theorem validate_priced : (validate rules accounts data).Priced 2030 := by
  refine .of_sum (m := 20 + (1620 + (40 + (20 + (80 + (20 + (210 + (20 + 0)))))))) ?_ (by decide)
  refine .bind (.charge _ _) fun _ => ?_
  split
  · refine .bind (record_priced _ _) fun _ => .free (.require _ _) fun _ => ?_
    refine .bind (.charge _ _) fun _ => .free (authority_priced _ _ _) fun _ => ?_
    refine .free (.require _ _) fun _ => ?_
    refine .bind (.charge _ _) fun _ => .free (.check _) fun _ => ?_
    refine .bind (.charge _ _) fun _ => .free (mint_priced _ _ _) fun _ => ?_
    refine .free (.require _ _) fun _ => .free (.require _ _) fun _ => ?_
    refine .free (.attempt _) fun _ => .free (.require _ _) fun _ => ?_
    refine .bind (.charge _ _) fun _ => .free (.require _ _) fun _ => ?_
    refine .bind (.charge _ _) fun _ => .free (.require _ _) fun _ => .free (.check _) fun _ => ?_
    exact .bind (.charge _ _) fun _ => .free (.require _ _) fun _ => .pure _
  · exact .refused _ _

theorem script_priced : (script rules accounts data).Priced 3030 := by
  refine .of_sum (m := 2030 + (1000 + 0)) ?_ (by decide)
  refine .bind (validate_priced rules accounts data) fun v => ?_
  have hissue : (issue [v.call]).Priced 1000 := (Priced.issue _).of_sum (by simp [Cost.call])
  exact hissue.bind fun _ => .pure _

end DirectBurn

namespace OrganizationBurn

theorem validate_priced : (validate rules accounts data).Priced 5000 := by
  refine .of_sum (m := 20 + (1620 + (40 + (30 + (3000 + (40 + (40 + (210 + 0)))))))) ?_ (by decide)
  refine .bind (.charge _ _) fun _ => ?_
  split
  · refine .bind (record_priced _ _) fun _ => .free (.require _ _) fun _ => ?_
    refine .bind (.charge _ _) fun _ => .free (authority_priced _ _ _) fun _ => ?_
    refine .free (.require _ _) fun _ => ?_
    refine .bind (.charge _ _) fun _ => .free (.check _) fun _ => ?_
    refine .bind (.charge _ _) fun _ => .free (canonicalIdentity_priced _ _ _ _) fun _ => ?_
    refine .bind (.charge _ _) fun _ => .free (mint_priced _ _ _) fun _ => ?_
    refine .bind (.charge _ _) fun _ => .free (.require _ _) fun _ => ?_
    refine .free (.require _ _) fun _ => ?_
    refine .bind (.charge _ _) fun _ => .free (.require _ _) fun _ => ?_
    exact .free (.check _) fun _ => .pure _
  · exact .refused _ _

theorem script_priced : (script rules accounts data).Priced 6000 := by
  refine .of_sum (m := 5000 + (1000 + 0)) ?_ (by decide)
  refine .bind (validate_priced rules accounts data) fun v => ?_
  have hissue : (issue [v.call]).Priced 1000 := (Priced.issue _).of_sum (by simp [Cost.call])
  exact hissue.bind fun _ => .pure _

end OrganizationBurn

/-- The price of the script of an operation. -/
def Operation.price : Operation → Nat
  | splitTransfer => 8360
  | directBurn => 3030
  | organizationBurn => 6000

theorem Operation.script_priced (operation : Operation) :
    (operation.script rules accounts data).Priced operation.price := by
  cases operation with
  | splitTransfer => exact SplitTransfer.script_priced rules accounts data
  | directBurn => exact DirectBurn.script_priced rules accounts data
  | organizationBurn => exact OrganizationBurn.script_priced rules accounts data

end Settlement
