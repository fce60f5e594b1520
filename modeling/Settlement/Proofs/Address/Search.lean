import Settlement.Address.Identity
import Settlement.Proofs.Fault.Outcome

/-! The search for a bump goes through all of them, and fails only if none has an address. It ends
at the highest bump that has one. Seeds or a program that are not fit for any address have none. -/

namespace Settlement

namespace Scheme

variable {scheme : Scheme} {seeds : List Bytes} {program : Bytes}

theorem search_ok_of_create {bump : UInt8} {address : Bytes}
    (h : scheme.create (seeds ++ [[bump]]) program = .ok address) {count : Nat}
    (hcount : bump.toNat < count) : ∃ found, scheme.search seeds program count = .ok found := by
  induction count with
  | zero => omega
  | succ count ih =>
    cases hfirst : scheme.create (seeds ++ [[UInt8.ofNat count]]) program with
    | ok first => exact ⟨(first, UInt8.ofNat count), by simp only [search, hfirst]⟩
    | error e =>
      have hother : bump.toNat ≠ count := by
        rintro rfl
        rw [UInt8.ofNat_toNat, h] at hfirst
        cases hfirst
      obtain ⟨found, hfound⟩ := ih (by omega)
      exact ⟨found, by simp only [search, hfirst, hfound]⟩

theorem create_of_search {bump : UInt8} {address : Bytes} {count : Nat}
    (h : scheme.search seeds program count = .ok (address, bump)) :
    scheme.create (seeds ++ [[bump]]) program = .ok address := by
  induction count with
  | zero => cases h
  | succ count ih =>
    cases hfirst : scheme.create (seeds ++ [[UInt8.ofNat count]]) program with
    | ok first =>
      simp only [search, hfirst] at h
      cases h
      exact hfirst
    | error e =>
      simp only [search, hfirst] at h
      exact ih h

/-- A search ends at the highest bump below its bound that has an address. -/
theorem search_eq_ok_iff {bump : UInt8} {address : Bytes} {count : Nat} (hcount : count ≤ 256) :
    scheme.search seeds program count = .ok (address, bump) ↔
      bump.toNat < count ∧ scheme.create (seeds ++ [[bump]]) program = .ok address ∧
        ∀ higher : UInt8, bump < higher → higher.toNat < count →
          ∀ other, scheme.create (seeds ++ [[higher]]) program ≠ .ok other := by
  induction count with
  | zero => simp [search]
  | succ count ih =>
    have htop : (UInt8.ofNat count).toNat = count := by
      rw [UInt8.toNat_ofNat']
      omega
    cases hfirst : scheme.create (seeds ++ [[UInt8.ofNat count]]) program with
    | ok first =>
      simp only [search, hfirst, Except.ok.injEq, Prod.mk.injEq]
      constructor
      · rintro ⟨rfl, rfl⟩
        refine ⟨by omega, hfirst, fun higher hlt hbound => ?_⟩
        rw [UInt8.lt_iff_toNat_lt] at hlt
        omega
      · rintro ⟨hbound, haddress, hhigher⟩
        have hnot : ¬ bump < UInt8.ofNat count := fun hlt => hhigher _ hlt (by omega) _ hfirst
        have hbump : UInt8.ofNat count = bump := by
          rw [UInt8.lt_iff_toNat_lt] at hnot
          exact UInt8.toNat_inj.1 (by omega)
        rw [hbump, haddress] at hfirst
        exact ⟨(Except.ok.inj hfirst).symm, hbump⟩
    | error e =>
      simp only [search, hfirst]
      rw [ih (by omega)]
      -- The bump at the bound has no address, so the bound may as well leave it out.
      have hother {b : UInt8} {a : Bytes}
          (hb : scheme.create (seeds ++ [[b]]) program = .ok a) : b.toNat ≠ count := by
        rintro rfl
        rw [UInt8.ofNat_toNat, hb] at hfirst
        cases hfirst
      constructor
      · rintro ⟨hbound, haddress, hhigher⟩
        refine ⟨by omega, haddress, fun higher hlt hless other hcreate => ?_⟩
        have hne := hother hcreate
        exact hhigher higher hlt (by omega) other hcreate
      · rintro ⟨hbound, haddress, hhigher⟩
        have hne := hother haddress
        exact ⟨by omega, haddress, fun higher hlt hless => hhigher higher hlt (by omega)⟩

theorem search_error {d : DerivationFault} {count : Nat}
    (h : scheme.search seeds program count = .error d) : d = .noBump := by
  induction count with
  | zero =>
    cases h
    rfl
  | succ count ih =>
    cases hfirst : scheme.create (seeds ++ [[UInt8.ofNat count]]) program with
    | ok first => simp only [search, hfirst, reduceCtorEq] at h
    | error e =>
      simp only [search, hfirst] at h
      exact ih h

/-- The bump that is found has an address, and no higher one has. -/
theorem find_eq_ok_iff {bump : UInt8} {address : Bytes} :
    scheme.find seeds program = .ok (address, bump) ↔
      scheme.create (seeds ++ [[bump]]) program = .ok address ∧ ∀ higher : UInt8, bump < higher →
        ∃ d, scheme.create (seeds ++ [[higher]]) program = .error d := by
  have hlt (b : UInt8) : b.toNat < 256 := b.toNat_lt
  rw [find, search_eq_ok_iff (Nat.le_refl 256)]
  simp only [hlt, true_and, forall_const, Outcome.exists_error_iff]

/-- Nothing is found exactly if no bump has an address. -/
theorem find_eq_error_iff {d : DerivationFault} : scheme.find seeds program = .error d ↔
    d = .noBump ∧ ∀ bump : UInt8, ∃ e, scheme.create (seeds ++ [[bump]]) program = .error e := by
  constructor
  · intro h
    refine ⟨search_error h, fun bump => Outcome.exists_error_iff.2 fun address hcreate => ?_⟩
    obtain ⟨found, hfound⟩ := search_ok_of_create hcreate bump.toNat_lt
    cases h.symm.trans hfound
  · rintro ⟨rfl, hnone⟩
    cases hfind : scheme.find seeds program with
    | ok found =>
      obtain ⟨e, he⟩ := hnone found.2
      cases he.symm.trans (create_of_search hfind)
    | error e => rw [search_error hfind]

theorem create_eq_ok {address : Bytes} (h : scheme.create seeds program = .ok address) :
    isAddress program = true ∧ seeds.length ≤ 16 ∧ (∀ seed ∈ seeds, seed.length ≤ 32) ∧
      scheme.digest (derivationMessage seeds program) = address := by
  simp only [create, Outcome.guard_eq_ok, Bool.not_eq_true', Bool.not_eq_false, Nat.not_lt,
    Except.ok.injEq, List.any_eq_true, decide_eq_true_eq, not_exists, not_and] at h
  obtain ⟨hprogram, hcount, hlength, -, haddress⟩ := h
  exact ⟨hprogram, hcount, hlength, haddress⟩

/-- Seeds that leave no place for a bump, a seed that is too long, and a program of another length
than an address find nothing. -/
theorem find_of_unfit (h : 16 ≤ seeds.length ∨ (∃ seed ∈ seeds, 32 < seed.length) ∨
    program.length ≠ 32) : scheme.find seeds program = .error .noBump := by
  refine find_eq_error_iff.2 ⟨rfl, fun bump => Outcome.exists_error_iff.2 fun address hcreate => ?_⟩
  obtain ⟨hprogram, hcount, hlength, -⟩ := create_eq_ok hcreate
  rw [List.length_append, List.length_singleton] at hcount
  rcases h with hmany | ⟨seed, hseed, hlong⟩ | hother
  · omega
  · have hshort := hlength seed (List.mem_append_left _ hseed)
    omega
  · exact hother (beq_iff_eq.1 hprogram)

end Scheme

theorem Identity.find_ok_of_address {i : Identity} {bump : UInt8} {program address : Bytes}
    (h : i.address bump program = .ok address) : ∃ found, i.find program = .ok found :=
  Scheme.search_ok_of_create h bump.toNat_lt

theorem Identity.address_of_find {i : Identity} {bump : UInt8} {program address : Bytes}
    (h : i.find program = .ok (address, bump)) : i.address bump program = .ok address :=
  Scheme.create_of_search h

/-- The key is the address of an identity with the highest bump that has one. -/
def Identity.Canonical (i : Identity) (program key : Bytes) : Prop :=
  ∃ bump, i.address bump program = .ok key ∧
    ∀ higher, bump < higher → ∀ other, i.address higher program ≠ .ok other

theorem Identity.canonical_iff_find {i : Identity} {program key : Bytes} :
    i.Canonical program key ↔ ∃ bump, i.find program = .ok (key, bump) := by
  refine exists_congr fun bump => Iff.trans ?_ (Scheme.search_eq_ok_iff (Nat.le_refl 256)).symm
  have hlt (b : UInt8) : b.toNat < 256 := b.toNat_lt
  simp only [hlt, true_and, forall_const]
  rfl

instance (i : Identity) (program key : Bytes) : Decidable (i.Canonical program key) :=
  decidable_of_iff ((i.find program).map Prod.fst = .ok key) <| by
    rw [Identity.canonical_iff_find]
    cases i.find program <;> simp [Except.map, eq_comm, Prod.ext_iff]

end Settlement
