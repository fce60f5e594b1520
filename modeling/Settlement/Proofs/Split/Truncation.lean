import Mathlib.Tactic.NormNum
import Settlement.Proofs.Ledger.Balances
import Settlement.Proofs.Number.Value
import Settlement.Proofs.Split.Table

/-! Ratios of finite numbers. They are accepted by their values, but a policy keeps only the whole
parts. So a denominator between zero and one is accepted and is then zero, and no payment of its
type can be divided. Every other ratio that is accepted has legs for every total. -/

namespace Settlement

namespace Ratio

def Finite (r : Ratio) : Prop := r.numerator.Finite ∧ r.denominator.Finite

theorem value_bounds {name : Text} {v : Json.Value} {r : Ratio} (h : ofValue name v = .ok r)
    (hfinite : r.Finite) : 0 ≤ r.numerator.value ∧
      r.numerator.value ≤ r.denominator.value ∧ 0 < r.denominator.value := by
  obtain ⟨hn, hd⟩ := hfinite
  have hwhole : Number.int? 0 = some 0 := rfl
  have hzero : Number.Finite 0 := Number.finite_of_int? hwhole
  have hvalue : Number.value 0 = 0 := Number.value_of_int? hwhole
  obtain ⟨-, hdenominator, hnumerator, hle⟩ := ofValue_eq_ok.1 h
  rw [Bool.eq_false_iff, Ne, Number.lessEq_iff hd hzero, hvalue, not_le] at hdenominator
  rw [Bool.eq_false_iff, Ne, Number.less_iff hn hzero, hvalue, not_lt] at hnumerator
  rw [Bool.eq_false_iff, Ne, Number.less_iff hd hn, not_lt] at hle
  exact ⟨hnumerator, hle, hdenominator⟩

/-- The whole parts of a ratio, which are what a policy divides by. -/
def share (r : Ratio) : Share := ⟨⌊r.numerator.value⌋, ⌊r.denominator.value⌋⟩

theorem whole_parts {name : Text} {v : Json.Value} {r : Ratio} (h : ofValue name v = .ok r)
    (hfinite : r.Finite) : (Json.Value.ofNumber r.numerator).whole = .ok r.share.numerator ∧
      (Json.Value.ofNumber r.denominator).whole = .ok r.share.denominator := by
  obtain ⟨hnonneg, -, hpos⟩ := value_bounds h hfinite
  exact ⟨Number.whole_eq_floor hfinite.1 hnonneg, Number.whole_eq_floor hfinite.2 hpos.le⟩

/-- The whole parts are a fraction again, unless the denominator has none. -/
theorem share_cases {name : Text} {v : Json.Value} {r : Ratio} (h : ofValue name v = .ok r)
    (hfinite : r.Finite) : 1 ≤ r.denominator.value ∧ r.share.IsFraction ∨
      r.denominator.value < 1 ∧ r.share.denominator = 0 := by
  obtain ⟨hnonneg, hle, hpos⟩ := value_bounds h hfinite
  by_cases hone : 1 ≤ r.denominator.value
  · have hdenominator : 1 ≤ r.share.denominator := Int.le_floor.2 (by simpa using hone)
    exact .inl ⟨hone, Int.floor_nonneg.2 hnonneg, Int.floor_le_floor hle, by omega⟩
  · exact .inr ⟨not_le.1 hone, Int.floor_eq_zero_iff.2 ⟨hpos.le, not_le.1 hone⟩⟩

end Ratio

namespace Policy

/-- No total is divided by a denominator that is zero. -/
theorem allocate_of_zero {p : Policy} {operation : Json.Value} {share : Share} {total : Int}
    (hshare : p.share? operation = some share) (hzero : share.denominator = 0)
    (htotal : total ≠ 0) : p.allocate operation (.int total) = .error .divisionByZero := by
  simp only [allocate_int, htotal, if_false, hshare, hzero, if_true]

variable {table : Json.Value} {ratios : List (Text × Ratio)}

/-- A policy has the whole parts of a table of finite ratios. -/
theorem ofRatios_finite (haccepted : Config.ratiosOf table = .ok ratios)
    (hfinite : ∀ entry ∈ ratios, entry.2.Finite) : ∃ policy, ofRatios ratios = .ok policy ∧
      ∀ name r, Json.field? name ratios = some r → policy.share? (.text name) = some r.share := by
  have hparts (entry : Text × Ratio) (hentry : entry ∈ ratios) :=
    Ratio.whole_parts (Config.checked_of_ratiosOf haccepted entry hentry) (hfinite entry hentry)
  obtain ⟨policy, hpolicy, -⟩ := ofRatios_ok (P := fun _ => True) fun entry hentry =>
    ⟨entry.2.share, (hparts entry hentry).1, (hparts entry hentry).2, trivial⟩
  refine ⟨policy, hpolicy, fun name r hr => ?_⟩
  obtain ⟨hn, hd⟩ := hparts _ (Json.mem_of_field? hr)
  obtain ⟨share, hshare, hn', hd'⟩ := share?_ofRatios hpolicy hr
  have hsame : share = r.share := by
    cases share
    rw [Ratio.share, Share.mk.injEq]
    exact ⟨Except.ok.inj (hn'.symm.trans hn), Except.ok.inj (hd'.symm.trans hd)⟩
  rw [hshare, hsame]

/-- A total that is a word has legs, unless the denominator of its type is below one. -/
theorem legs_or_divisionByZero {policy : Policy} {name : Text} {v : Json.Value} {r : Ratio}
    (h : Ratio.ofValue name v = .ok r) (hfinite : r.Finite)
    (hshare : policy.share? (.text name) = some r.share) {total : Int} (hpos : 0 < total)
    (hle : total ≤ maxAmount) :
    (1 ≤ r.denominator.value ∧ ∃ organization pool, policy.HasLegs name total organization pool) ∨
      r.denominator.value < 1 ∧
        policy.allocate (.text name) (.int total) = .error .divisionByZero := by
  have hmax : maxAmount = 2 ^ 64 - 1 := rfl
  rcases Ratio.share_cases h hfinite with ⟨hone, hfraction⟩ | ⟨hbelow, hzero⟩
  · exact .inl ⟨hone, _, _, allocate_of_fraction hshare hfraction hpos (by omega)⟩
  · exact .inr ⟨hbelow, allocate_of_zero hshare hzero (by omega)⟩

end Policy

/-- A validated payment ends as the division of its total does, as far as that goes wrong. -/
theorem SplitTransfer.script_of_unallocated {rules : Rules} {accounts : List AccountView}
    {data : Bytes} {v : Valid} {e : Fault} (hv : (validate rules accounts data).outcome = .ok v)
    (ha : rules.policy.allocate (.ofString v.payload.operationType)
      (.int v.payload.totalAmount.toNat) = .error e) :
    (script rules accounts data).outcome = .error e := by
  rw [script, Script.outcome_bind_of_ok hv, Script.outcome_bind_of_ok (Script.outcome_charge _ _)]
  exact Script.outcome_bind_of_error ha

namespace Policy

variable {table : Json.Value} {ratios : List (Text × Ratio)}

/-- A table of finite ratios that is accepted gives a policy. It divides every total of a type whose
denominator is at least one, and none of a type whose denominator is below one: that is the only way
in which the division of a validated payment fails. -/
theorem divided_unless_below_one (haccepted : Config.ratiosOf table = .ok ratios)
    (hfinite : ∀ entry ∈ ratios, entry.2.Finite) : ∃ policy, ofRatios ratios = .ok policy ∧
      (∀ name r, Json.field? name ratios = some r → ∀ total, 0 < total → total ≤ maxAmount →
        (1 ≤ r.denominator.value ∧
          ∃ organization pool, policy.HasLegs name total organization pool) ∨
        r.denominator.value < 1 ∧
          policy.allocate (.text name) (.int total) = .error .divisionByZero) ∧
      ∀ (rules : Rules) (accounts : List AccountView) (data : Bytes) (v : SplitTransfer.Valid),
        rules.policy = policy → (SplitTransfer.validate rules accounts data).outcome = .ok v →
          ∃ r, Json.field? (Text.of v.payload.operationType) ratios = some r ∧
            ((1 ≤ r.denominator.value ∧
              ∃ settled, (SplitTransfer.script rules accounts data).outcome = .ok settled) ∨
            r.denominator.value < 1 ∧
              (SplitTransfer.script rules accounts data).outcome = .error .divisionByZero) := by
  obtain ⟨policy, hpolicy, hshares⟩ := ofRatios_finite haccepted hfinite
  have hlegs (name : Text) (r : Ratio) (hr : Json.field? name ratios = some r) (total : Int)
      (hpos : 0 < total) (hle : total ≤ maxAmount) :=
    have hmem := Json.mem_of_field? hr
    legs_or_divisionByZero (Config.checked_of_ratiosOf haccepted _ hmem) (hfinite _ hmem)
      (hshares name r hr) hpos hle
  refine ⟨policy, hpolicy, hlegs, fun rules accounts data v hrules hv => ?_⟩
  subst hrules
  obtain ⟨recordView, accepted⟩ := SplitTransfer.validate_outcome.1 hv
  have hname := allows_iff.1 accepted.allowed
  rw [ofRatios_names hpolicy] at hname
  obtain ⟨r, hr, -⟩ := Json.exists_field? hname
  have hpos : v.payload.totalAmount.toNat ≠ 0 := fun h =>
    accepted.nonzero (UInt64.toNat_inj.1 h)
  have hlt := v.payload.totalAmount.toNat_lt
  have hmax : maxAmount = 2 ^ 64 - 1 := rfl
  refine ⟨r, hr, ?_⟩
  rcases hlegs _ r hr v.payload.totalAmount.toNat (by omega) (by omega) with
    ⟨hone, organization, pool, hdivided⟩ | ⟨hbelow, hfailed⟩
  · obtain ⟨settled, hsettled, -⟩ := SplitTransfer.script_of_validated hv hdivided
    exact .inl ⟨hone, settled, hsettled⟩
  · exact .inr ⟨hbelow, SplitTransfer.script_of_unallocated hv hfailed⟩

end Policy

namespace Sample

def half : Number := .float (.finite false (2 ^ 52) (-53))

def threeHalves : Number := .float (.finite false (3 * 2 ^ 51) (-52))

/-- A half over a half for payments, and a half over three halves beside it. -/
def halves : List (Text × Ratio) :=
  [(Text.of "mixed_payment", ⟨half, half⟩), (Text.of "z_direct", ⟨half, threeHalves⟩)]

def halvesTable : Json.Value := .object (halves.map fun (name, r) => (name, r.toValue))

example : Json.readWithin 2
    "\x7b\"mixed_payment\": [0.5, 0.5], \"z_direct\": [0.5, 1.5]\x7d".toList = .ok halvesTable := by
  decide +kernel

/-- What is left of the halves in a policy. -/
def halvesPolicy : Policy := [(Text.of "mixed_payment", ⟨0, 0⟩), (Text.of "z_direct", ⟨0, 1⟩)]

theorem half_value : half.value = 1 / 2 := by
  have hvalue : half.value = ((2 ^ 52 : Nat) : Int) * (2 : ℚ) ^ (-53 : Int) := rfl
  rw [hvalue]
  norm_num

theorem threeHalves_value : threeHalves.value = 3 / 2 := by
  have hvalue : threeHalves.value = ((3 * 2 ^ 51 : Nat) : Int) * (2 : ℚ) ^ (-52 : Int) := rfl
  rw [hvalue]
  norm_num

theorem halves_finite : ∀ entry ∈ halves, entry.2.Finite := by
  intro entry hentry
  rcases List.mem_cons.1 hentry with rfl | hentry
  · exact ⟨⟨_, _, _, rfl⟩, ⟨_, _, _, rfl⟩⟩
  · rw [List.mem_singleton.1 hentry]
    exact ⟨⟨_, _, _, rfl⟩, ⟨_, _, _, rfl⟩⟩

theorem halves_accepted : Config.ratiosOf halvesTable = .ok halves := by decide +kernel

theorem halves_policy : Policy.ofRatios halves = .ok halvesPolicy := by decide +kernel

/-- A payment under the halves. -/
def halvesRules : Rules := { Ledger.Sample.program.rules with policy := halvesPolicy }

end Sample

open Sample

/-- A half over three halves divides a payment as nothing over one. A half over a half divides none,
and so a payment that has passed its validation ends in a division by zero. -/
theorem halves_divided_and_undivided :
    let views := Ledger.Sample.splitTransferViews
    let data := Ledger.Sample.splitTransfer.drop 8
    (Config.ratiosOf halvesTable = .ok halves ∧ ∀ entry ∈ halves, entry.2.Finite) ∧
      Policy.ofRatios halves = .ok halvesPolicy ∧
      (∃ organization pool, halvesPolicy.HasLegs (Text.of "z_direct") 120 organization pool) ∧
      halvesPolicy.allocate (.ofString "mixed_payment") (.int 120) = .error .divisionByZero ∧
      (∃ v, (SplitTransfer.validate halvesRules views data).outcome = .ok v) ∧
        (SplitTransfer.script halvesRules views data).outcome = .error .divisionByZero := by
  intro views data
  obtain ⟨policy, hpolicy, hlegs, hscript⟩ :=
    Policy.divided_unless_below_one halves_accepted halves_finite
  cases halves_policy.symm.trans hpolicy
  have hpayment : Json.field? (Text.of "mixed_payment") halves = some ⟨half, half⟩ := by
    decide +kernel
  have hbelow : ¬ 1 ≤ half.value := by
    rw [half_value]
    norm_num
  obtain ⟨v, hv⟩ : ∃ v, (SplitTransfer.validate halvesRules views data).outcome = .ok v :=
    Outcome.exists_ok_of_isSome (by decide +kernel)
  refine ⟨⟨halves_accepted, halves_finite⟩, halves_policy, ?_, ?_, ⟨v, hv⟩, ?_⟩
  · rcases hlegs (Text.of "z_direct") ⟨half, threeHalves⟩ (by decide +kernel) 120 (by decide)
      (by decide) with ⟨-, hdivided⟩ | ⟨habove, -⟩
    · exact hdivided
    · rw [threeHalves_value] at habove
      norm_num at habove
  · rcases hlegs _ _ hpayment 120 (by decide) (by decide) with ⟨hone, -⟩ | ⟨-, hfailed⟩
    · exact absurd hone hbelow
    · exact hfailed
  · obtain ⟨r, hr, houtcome⟩ := hscript halvesRules views data v rfl hv
    obtain ⟨recordView, accepted⟩ := SplitTransfer.validate_outcome.1 hv
    have hdecode : SplitTransfer.decode data =
        .ok ⟨1, 1, 120, 255, 255, 255, "mixed_payment"⟩ := by
      decide +kernel
    rw [← Except.ok.inj (hdecode.symm.trans accepted.decoded)] at hr
    cases hpayment.symm.trans hr
    rcases houtcome with ⟨hone, -⟩ | ⟨-, hfailed⟩
    · exact absurd hone hbelow
    · exact hfailed

/-- Not every table of finite ratios that is accepted divides every total. -/
theorem not_always_divided : ¬ ∀ table ratios, Config.ratiosOf table = .ok ratios →
    (∀ entry ∈ ratios, entry.2.Finite) → ∃ policy, Policy.ofRatios ratios = .ok policy ∧
      ∀ name ∈ ratios.map Prod.fst, ∀ total : Int, 0 < total → total ≤ Policy.maxAmount →
        ∃ a, policy.allocate (.text name) (.int total) = .ok a := by
  intro h
  obtain ⟨policy, hpolicy, hdivided⟩ := h halvesTable halves halves_accepted halves_finite
  cases halves_policy.symm.trans hpolicy
  obtain ⟨a, ha⟩ := hdivided (Text.of "mixed_payment") (by decide +kernel) 120 (by decide)
    (by decide)
  have hzero : halvesPolicy.allocate (.ofString "mixed_payment") (.int 120) =
      .error .divisionByZero := by
    decide +kernel
  cases hzero.symm.trans ha

end Settlement
