import Settlement.Address.Identity

/-! Derived addresses keep their identities apart. The seeds stand next to each other with nothing
between them, but no two identities, bumps and programs spell the same message, so one address
serves two of them only where two messages have one digest. -/

namespace Settlement

theorem Bytes.ofNat_inj {width m n : Nat} (hm : m < 256 ^ width) (hn : n < 256 ^ width)
    (h : ofNat width m = ofNat width n) : m = n := by
  rw [← value_ofNat hm, h, value_ofNat hn]

namespace Identity

theorem number_inj {m n : UInt64} (h : Bytes.ofNat 8 m.toNat = Bytes.ofNat 8 n.toNat) : m = n :=
  UInt64.toNat_inj.1 (Bytes.ofNat_inj m.toNat_lt n.toNat_lt h)

/-- The bytes before the bump. No two kinds of identity have the same number of them, whatever the
number of the identity is. -/
def pathLength : Identity → Nat
  | user _ => 12
  | organization _ => 15
  | incentivePool => 14
  | configRecord => 11

theorem length_flatten_path (i : Identity) : i.path.flatten.length = i.pathLength := by
  cases i <;> simp [path, tag, components, pathLength]

theorem flatten_path_inj {i j : Identity} (h : i.path.flatten = j.path.flatten) : i = j := by
  have hlength : i.pathLength = j.pathLength := by
    rw [← length_flatten_path, ← length_flatten_path, h]
  cases i with
  | user m =>
    cases j with
    | user n =>
      simp only [path, components, List.flatten_cons, List.flatten_nil, List.append_nil, tag,
        List.append_cancel_left_eq] at h
      rw [number_inj h]
    | _ => simp [pathLength] at hlength
  | organization m =>
    cases j with
    | organization n =>
      simp only [path, components, List.flatten_cons, List.flatten_nil, List.append_nil, tag,
        List.append_cancel_left_eq] at h
      rw [number_inj h]
    | _ => simp [pathLength] at hlength
  | incentivePool =>
    cases j with
    | incentivePool => rfl
    | _ => simp [pathLength] at hlength
  | configRecord =>
    cases j with
    | configRecord => rfl
    | _ => simp [pathLength] at hlength

end Identity

/-- An identity with its bump, under the address of a program. -/
@[ext] structure Derivation where
  identity : Identity
  bump : UInt8
  program : Bytes
  isAddress : isAddress program = true

namespace Derivation

variable {d e : Derivation} {key : Bytes}

/-- What the address is the digest of. -/
def message (d : Derivation) : Bytes := derivationMessage (d.identity.seeds d.bump) d.program

def verifies (d : Derivation) (key : Bytes) : Bool := d.identity.verify d.bump d.program key

theorem message_eq (d : Derivation) :
    d.message = d.identity.path.flatten ++ (d.bump :: (d.program ++ derivationMarker)) := by
  simp [message, derivationMessage, Identity.seeds]

theorem length_program (d : Derivation) : d.program.length = 32 := by
  simpa [Settlement.isAddress] using d.isAddress

theorem message_inj (h : d.message = e.message) : d = e := by
  have hlength : (d.bump :: (d.program ++ derivationMarker)).length =
      (e.bump :: (e.program ++ derivationMarker)).length := by
    simp [length_program]
  rw [message_eq, message_eq] at h
  -- What follows the path has the same length in all messages, so the cut is from the end.
  obtain ⟨hpath, hrest⟩ := List.append_inj' h hlength
  obtain ⟨hbump, hprogram⟩ := List.cons.inj hrest
  exact Derivation.ext (Identity.flatten_path_inj hpath) hbump
    (List.append_cancel_right hprogram)

/-- The seeds of an identity are few and short, so only a public key stands in the way of an
address. -/
theorem create_seeds (scheme : Scheme) (d : Derivation) :
    scheme.create (d.identity.seeds d.bump) d.program =
      if scheme.isPublicKey (scheme.digest d.message) then .error .publicKey
      else .ok (scheme.digest d.message) := by
  have hcount : ¬ 16 < (d.identity.seeds d.bump).length := by
    cases d.identity <;> simp [Identity.seeds, Identity.path, Identity.components]
  have hshort : (d.identity.seeds d.bump).any (32 < ·.length) = false := by
    cases d.identity <;>
      simp [Identity.seeds, Identity.path, Identity.components, Identity.tag]
  simp only [Scheme.create, d.isAddress, hcount, hshort, Bool.not_true, Bool.false_eq_true,
    if_false]
  rfl

theorem address_eq (d : Derivation) : d.identity.address d.bump d.program =
    if Edwards25519.isPublicKey (Sha2.sha256 d.message) then .error .publicKey
    else .ok (Sha2.sha256 d.message) := by
  simp only [Identity.address, createAddress, create_seeds, Scheme.standard]

theorem verifies_iff : d.verifies key = true ↔
    Sha2.sha256 d.message = key ∧ Edwards25519.isPublicKey key = false := by
  rw [verifies, Identity.verify_eq_true_iff, address_eq]
  generalize Sha2.sha256 d.message = digest
  by_cases hpublic : Edwards25519.isPublicKey digest = true
  · simp only [hpublic, if_true, reduceCtorEq, false_iff, not_and, Bool.not_eq_false]
    rintro rfl
    exact hpublic
  · simp only [hpublic, Bool.false_eq_true, if_false, Except.ok.injEq]
    constructor
    · rintro rfl
      exact ⟨rfl, Bool.eq_false_iff.2 hpublic⟩
    · exact And.left

/-- No two derivations have the same message, and both verify an address exactly where it is the
digest of both messages: such an address is a collision. -/
theorem separated (h : d ≠ e) : d.message ≠ e.message ∧
    ∀ key, d.verifies key = true ∧ e.verifies key = true ↔
      Sha2.sha256 d.message = key ∧ Sha2.sha256 e.message = key ∧
        Edwards25519.isPublicKey key = false := by
  refine ⟨fun hmessage => h (message_inj hmessage), fun key => ?_⟩
  rw [verifies_iff, verifies_iff]
  constructor
  · rintro ⟨⟨hd, hpublic⟩, he, -⟩
    exact ⟨hd, he, hpublic⟩
  · rintro ⟨hd, he, hpublic⟩
    exact ⟨⟨hd, hpublic⟩, he, hpublic⟩

/-- A user and an organization of the same number and bump. -/
theorem same_number_separated :
    let program := List.replicate 32 (7 : UInt8)
    let user : Derivation := ⟨.user 1, 255, program, rfl⟩
    let organization : Derivation := ⟨.organization 1, 255, program, rfl⟩
    user ≠ organization ∧ user.message ≠ organization.message ∧
      ∀ key, user.verifies key = true ∧ organization.verifies key = true ↔
        Sha2.sha256 user.message = key ∧ Sha2.sha256 organization.message = key ∧
          Edwards25519.isPublicKey key = false := by
  intro program user organization
  have hne : user ≠ organization := fun h => by cases congrArg identity h
  exact ⟨hne, separated hne⟩

end Derivation
end Settlement
