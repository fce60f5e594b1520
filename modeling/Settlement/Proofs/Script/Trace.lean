import Settlement.Proofs.Script.Run

/-! A host that is watched: every call it is handed is written down with its caller and its answer.
Watching a host changes nothing about a run. -/

namespace Settlement

variable {σ : Type}

structure Handover where
  caller : Bytes
  call : Call
  answer : Outcome Unit

namespace Host

/-- Watches a host. What is written down stands next to the state of the host. -/
def traced (host : Host σ) : Host (σ × List Handover) :=
  ⟨fun caller c s =>
    let (answer, t) := host.invoke caller c s.1
    (answer, t, s.2 ++ [⟨caller, c, answer⟩])⟩

variable {host : Host σ} {caller : Bytes}

theorem traced_invoke (host : Host σ) (caller : Bytes) (c : Call) (s : σ) (seen : List Handover) :
    host.traced.invoke caller c (s, seen) =
      ((host.invoke caller c s).1, (host.invoke caller c s).2,
        seen ++ [⟨caller, c, (host.invoke caller c s).1⟩]) := rfl

theorem traced_settles {cs : List Call} {s t : σ × List Handover}
    (h : host.traced.Settles caller cs s t) :
    t.2 = s.2 ++ cs.map fun c => ⟨caller, c, .ok ()⟩ := by
  induction h with
  | nil => simp only [List.map_nil, List.append_nil]
  | @cons c cs s s₁ s₂ first rest ih =>
    rw [traced_invoke] at first
    obtain ⟨hanswer, hstate⟩ := Prod.mk.inj first
    rw [ih, ← hstate, hanswer, List.map_cons, List.append_assoc, List.cons_append, List.nil_append]

end Host

theorem Host.traced_image (host : Host σ) : host.traced.Image Prod.fst host := fun _ _ _ => rfl

end Settlement
