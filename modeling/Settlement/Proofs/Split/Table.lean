import Mathlib.Algebra.Order.BigOperators.Group.List
import Mathlib.Algebra.Order.Group.Int
import Settlement.Config.Basic
import Settlement.Proofs.Split.Accepted

/-! Tables of ratios, and how the policies that come of them divide a total. Legs are words that sum
to the total wherever there are any. A table of whole ratios that is accepted has legs for every
total that is a word: the organization's is the quotient rounded down, and to divide a payment in
parts first takes from it less than one unit a part. -/

namespace Settlement

/-- The ratios that are accepted pass their check again. -/
theorem Config.checked_of_ratiosOf {table : Json.Value} {ratios : List (Text × Ratio)}
    (h : ratiosOf table = .ok ratios) :
    ∀ entry ∈ ratios, Ratio.ofValue entry.1 entry.2.toValue = .ok entry.2 := by
  intro entry hentry
  cases table with
  | null =>
    cases h
    obtain ⟨name, -, rfl⟩ := List.mem_map.1 hentry
    rfl
  | object fields =>
    obtain ⟨⟨name, v⟩, -, hvalue⟩ := (Outcome.mem_mapM_ok h).1 hentry
    obtain ⟨r, hr, hentry⟩ := Outcome.bind_eq_ok.1 hvalue
    cases hentry
    exact Ratio.ofValue_toValue hr
  | _ => cases h

/-- Both parts of the ratio are whole numbers. -/
def Ratio.Whole (r : Ratio) : Prop :=
  ∃ n d, r.numerator.int? = some n ∧ r.denominator.int? = some d

namespace Policy

/-- The table of a policy. Its ratios may be negative, above one, or over zero. -/
def toFields (p : Policy) : Json.Fields :=
  p.map fun (name, share) => (name, .list [.int share.numerator, .int share.denominator])

theorem ofValues_toFields (p : Policy) : ofValues p.toFields = .ok p := by
  induction p with
  | nil => rfl
  | cons entry rest ih =>
    simp only [ofValues, toFields, List.map_cons, List.mapM_cons] at ih ⊢
    rw [ih]
    rfl

/-- The division of a total for an operation type succeeds with these legs. -/
def HasLegs (p : Policy) (name : Text) (total organization pool : Int) : Prop :=
  p.allocate (.text name) (.int total) = .ok ⟨.int organization, .int pool⟩

instance (p : Policy) (name : Text) (total organization pool : Int) :
    Decidable (p.HasLegs name total organization pool) :=
  inferInstanceAs (Decidable (_ = _))

theorem HasLegs.unique {p : Policy} {name : Text} {total q r q' r' : Int}
    (h : p.HasLegs name total q r) (h' : p.HasLegs name total q' r') : q = q' ∧ r = r' := by
  have hsame := Except.ok.inj (Eq.trans (Eq.symm h) h')
  cases hsame
  exact ⟨rfl, rfl⟩

variable {table : Json.Value} {ratios : List (Text × Ratio)}

/-- A policy has the fractions of a table of whole ratios as they are. -/
theorem ofRatios_whole (haccepted : Config.ratiosOf table = .ok ratios)
    (hwhole : ∀ entry ∈ ratios, entry.2.Whole) : ∃ policy, ofRatios ratios = .ok policy ∧
      ∀ name r n d, Json.field? name ratios = some r → r.numerator.int? = some n →
        r.denominator.int? = some d →
          (Share.mk n d).IsFraction ∧ policy.share? (.text name) = some ⟨n, d⟩ := by
  have hchecked := Config.checked_of_ratiosOf haccepted
  have hratios : ∀ entry ∈ ratios, entry.2.Accepted entry.1 := by
    intro entry hentry
    obtain ⟨n, d, hn, hd⟩ := hwhole entry hentry
    exact ⟨⟨n, hn⟩, ⟨d, hd⟩, hchecked entry hentry⟩
  obtain ⟨policy, hpolicy, -⟩ := ofRatios_accepted hratios
  refine ⟨policy, hpolicy, fun name r n d hr hn hd => ?_⟩
  obtain ⟨hnonneg, hle, hpos⟩ := (hratios _ (Json.mem_of_field? hr)).bounds hn hd
  obtain ⟨⟨n', d'⟩, hshare, hn', hd'⟩ := share?_ofRatios hpolicy hr
  rw [Number.whole_of_int? hn] at hn'
  rw [Number.whole_of_int? hd] at hd'
  cases hn'
  cases hd'
  exact ⟨⟨hnonneg, hle, hpos⟩, hshare⟩

/-- Whatever the ratios of a policy are, the legs that it gives are words and sum to the total. And
if a table of whole ratios is accepted, a total that is a word always has legs: the organization's
is the only quotient that fits the ratio, and no guard of the legs is ever reached. -/
theorem legs_exact :
    (∀ shares : Policy, ofValues shares.toFields = .ok shares ∧
      ∀ (operation : Json.Value) (total : Int) (a : Allocation),
        shares.allocate operation (.int total) = .ok a →
          ∃ q r : Int, a = ⟨.int q, .int r⟩ ∧ (0 ≤ q ∧ q ≤ maxAmount) ∧
            (0 ≤ r ∧ r ≤ maxAmount) ∧ q + r = total) ∧
    ∀ table ratios, Config.ratiosOf table = .ok ratios → (∀ entry ∈ ratios, entry.2.Whole) →
      ∃ policy, ofRatios ratios = .ok policy ∧
        ∀ name r n d, Json.field? name ratios = some r → r.numerator.int? = some n →
          r.denominator.int? = some d → ∀ total : Int, 0 < total → total ≤ maxAmount →
            ∃ q : Int, (∀ q', q' = q ↔ q' * d ≤ total * n ∧ total * n < (q' + 1) * d) ∧
              policy.HasLegs name total q (total - q) ∧
              ∀ refusal : Refusal, refusal.code = .inr .splitCalculationError →
                policy.allocate (.text name) (.int total) ≠ refuse refusal := by
  refine ⟨fun shares => ⟨ofValues_toFields shares, fun operation total a h => ?_⟩,
    fun table ratios haccepted hwhole => ?_⟩
  · obtain ⟨-, share, -, -, ⟨horganization, hpool⟩, ⟨hmost, hmost'⟩, rfl⟩ :=
      allocate_eq_ok_iff.1 h
    refine ⟨_, _, rfl, ⟨horganization, hmost⟩, ⟨hpool, hmost'⟩, ?_⟩
    rw [Share.toPool]
    omega
  · obtain ⟨policy, hpolicy, hshares⟩ := ofRatios_whole haccepted hwhole
    refine ⟨policy, hpolicy, fun name r n d hr hn hd total hpos hle => ?_⟩
    obtain ⟨hfraction, hshare⟩ := hshares name r n d hr hn hd
    have hmax : maxAmount = 2 ^ 64 - 1 := rfl
    have hlegs := allocate_of_fraction hshare hfraction hpos (by omega)
    refine ⟨_, fun q' => Share.eq_toOrganization_iff hfraction.pos, hlegs,
      fun refusal _ hrefused => ?_⟩
    cases hlegs.symm.trans hrefused

theorem standard_whole : ∀ entry ∈ Config.standardRatios, entry.2.Whole := by
  intro entry hentry
  obtain ⟨name, -, rfl⟩ := List.mem_map.1 hentry
  exact ⟨100, 120, rfl, rfl⟩

/-- A share of two negative parts still gives legs, and the standard shares divide the largest
total. -/
theorem negative_and_largest_legs :
    let negative : Policy := [(Text.of "odd", ⟨-1, -2⟩)]
    let ratios := Config.standardRatios
    (ofValues negative.toFields = .ok negative ∧ negative.HasLegs (Text.of "odd") 101 50 51 ∧
      ∃ q r : Int, Allocation.mk (.int 50) (.int 51) = ⟨.int q, .int r⟩ ∧
        (0 ≤ q ∧ q ≤ maxAmount) ∧ (0 ≤ r ∧ r ≤ maxAmount) ∧ q + r = 101) ∧
    (Config.ratiosOf .null = .ok ratios ∧ ∀ entry ∈ ratios, entry.2.Whole) ∧
      ∃ policy, ofRatios ratios = .ok policy ∧ ∃ q : Int,
        (∀ q', q' = q ↔ q' * 120 ≤ maxAmount * 100 ∧ maxAmount * 100 < (q' + 1) * 120) ∧
        policy.HasLegs (Text.of "z_direct") maxAmount q (maxAmount - q) := by
  intro negative ratios
  obtain ⟨hraw, hwords⟩ := legs_exact.1 negative
  have hnegative : negative.HasLegs (Text.of "odd") 101 50 51 := by decide +kernel
  have haccepted : Config.ratiosOf .null = .ok ratios := rfl
  obtain ⟨policy, hpolicy, hexact⟩ := legs_exact.2 .null ratios haccepted standard_whole
  obtain ⟨q, hq, hlegs, -⟩ := hexact (Text.of "z_direct") ⟨.int 100, .int 120⟩ 100 120
    (by decide +kernel) rfl rfl maxAmount (by decide) (Int.le_refl _)
  exact ⟨⟨hraw, hnegative, hwords _ _ _ hnegative⟩, ⟨haccepted, standard_whole⟩, policy, hpolicy, q,
    hq, hlegs⟩

/-- A table of whole ratios that is accepted gives nothing away to whoever divides a payment in
parts: the organization's legs sum to less than one unit a part below its leg of the whole, and the
pool's to no more than that above its own. Neither leg shrinks when the total grows. -/
theorem legs_of_parts (haccepted : Config.ratiosOf table = .ok ratios)
    (hwhole : ∀ entry ∈ ratios, entry.2.Whole) : ∃ policy, ofRatios ratios = .ok policy ∧
      ∀ name ∈ ratios.map Prod.fst, ∃ organization pool : Int → Int,
        (∀ parts : List Int, parts ≠ [] → (∀ part ∈ parts, 0 < part) → parts.sum ≤ maxAmount →
          (∀ total ∈ parts.sum :: parts,
            policy.HasLegs name total (organization total) (pool total)) ∧
          ((parts.map organization).sum ≤ organization parts.sum ∧
            organization parts.sum ≤ (parts.map organization).sum + (parts.length - 1)) ∧
          (parts.map pool).sum - (parts.length - 1) ≤ pool parts.sum ∧
            pool parts.sum ≤ (parts.map pool).sum) ∧
        ∀ least most, 0 < least → least ≤ most → most ≤ maxAmount →
          (policy.HasLegs name least (organization least) (pool least) ∧
            policy.HasLegs name most (organization most) (pool most)) ∧
          organization least ≤ organization most ∧ pool least ≤ pool most := by
  obtain ⟨policy, hpolicy, hshares⟩ := ofRatios_whole haccepted hwhole
  refine ⟨policy, hpolicy, fun name hname => ?_⟩
  obtain ⟨r, hr, hmem⟩ := Json.exists_field? hname
  obtain ⟨n, d, hn, hd⟩ := hwhole _ hmem
  obtain ⟨hfraction, hshare⟩ := hshares name r n d hr hn hd
  have hmax : maxAmount = 2 ^ 64 - 1 := rfl
  have hlegs (total : Int) (hpos : 0 < total) (hle : total ≤ maxAmount) : policy.HasLegs name total
      ((Share.mk n d).toOrganization total) ((Share.mk n d).toPool total) :=
    allocate_of_fraction hshare hfraction hpos (by omega)
  refine ⟨_, _,
    fun parts hparts hpos hle => ⟨List.forall_mem_cons.2 ⟨?_, fun part hpart => ?_⟩, ?_⟩,
    fun least most hpos hle hmost => ⟨⟨hlegs least hpos (by omega), hlegs most (by omega) hmost⟩,
      hfraction.toOrganization_mono hle, hfraction.toPool_mono hle⟩⟩
  · exact hlegs _ (List.sum_pos parts hpos hparts) hle
  · have hpart_le := List.single_le_sum (fun part h => Int.le_of_lt (hpos part h)) part hpart
    exact hlegs part (hpos part hpart) (by omega)
  · obtain ⟨part, rest, rfl⟩ := List.exists_cons_of_ne_nil hparts
    have hsum := Share.toOrganization_sum hfraction.pos part rest
    rw [Share.sum_toPool, Share.toPool, List.length_cons]
    omega

/-- Three parts of 120 take two units from the organization, which is as much as they can. -/
theorem three_parts_of_120 :
    let ratios := Config.standardRatios
    let shares : Policy := ratios.map fun entry => (entry.1, ⟨100, 120⟩)
    (Config.ratiosOf .null = .ok ratios ∧ ∀ entry ∈ ratios, entry.2.Whole) ∧
      ofRatios ratios = .ok shares ∧ ∃ organization pool : Int → Int,
        (∀ total ∈ [120, 1, 7, 112],
          shares.HasLegs (Text.of "z_direct") total (organization total) (pool total)) ∧
        (organization 120 = ([1, 7, 112].map organization).sum + (3 - 1) ∧
          pool 120 = ([1, 7, 112].map pool).sum - (3 - 1)) ∧
        organization 112 ≤ organization 120 ∧ pool 112 ≤ pool 120 := by
  intro ratios shares
  have haccepted : Config.ratiosOf .null = .ok ratios := rfl
  have hshares : ofRatios ratios = .ok shares := by decide +kernel
  obtain ⟨policy, hpolicy, hlegs⟩ := legs_of_parts haccepted standard_whole
  rw [hshares] at hpolicy
  cases hpolicy
  obtain ⟨organization, pool, hparts, hgrow⟩ := hlegs (Text.of "z_direct") (by decide +kernel)
  obtain ⟨hdivided, -⟩ := hparts [1, 7, 112] (by decide) (by decide) (by decide)
  obtain ⟨-, hgrown⟩ := hgrow 112 120 (by decide) (by decide) (by decide)
  refine ⟨⟨haccepted, standard_whole⟩, hshares, organization, pool, hdivided, ?_, hgrown⟩
  have hwhole : shares.HasLegs (Text.of "z_direct") 120 100 20 := by decide +kernel
  have hone : shares.HasLegs (Text.of "z_direct") 1 0 1 := by decide +kernel
  have hseven : shares.HasLegs (Text.of "z_direct") 7 5 2 := by decide +kernel
  have hmost : shares.HasLegs (Text.of "z_direct") 112 93 19 := by decide +kernel
  obtain ⟨hwhole, hwhole'⟩ := (hdivided 120 (by decide)).unique hwhole
  obtain ⟨hone, hone'⟩ := (hdivided 1 (by decide)).unique hone
  obtain ⟨hseven, hseven'⟩ := (hdivided 7 (by decide)).unique hseven
  obtain ⟨hmost, hmost'⟩ := (hdivided 112 (by decide)).unique hmost
  simp only [List.map_cons, List.map_nil, List.sum_cons, List.sum_nil]
  omega

end Policy
end Settlement
