import Settlement.Proofs.Program.Course

/-! What any host sees of an instruction: the calls of the plan in their order, up to the first that
it fails. Nothing is handed over twice, and nothing before the whole validation has succeeded. -/

namespace Settlement

variable {σ : Type}

structure Follows (caller : Bytes) (plan : List Call) (outcome : Outcome Receipt)
    (seen : List Handover) : Prop where
  ordered : seen.map (·.call) <+: plan
  callers : ∀ h ∈ seen, h.caller = caller
  failed : ∀ (n : Nat) (h : Handover) (e : Fault), seen[n]? = some h → h.answer = .error e →
    seen.length = n + 1 ∧ seen.map (·.call) = plan.take (n + 1) ∧ outcome = .error e
  settled : ∀ receipt : Receipt, outcome = .ok receipt →
    seen.map (·.call) = plan ∧ receipt.calls = plan

def answered (caller : Bytes) (calls : List Call) : List Handover :=
  calls.map fun c => ⟨caller, c, .ok ()⟩

theorem map_call_answered (caller : Bytes) (calls : List Call) :
    (answered caller calls).map (·.call) = calls := by
  simp only [answered, List.map_map]
  exact List.map_id calls

theorem caller_of_mem_answered {caller : Bytes} {calls : List Call} {h : Handover}
    (hmem : h ∈ answered caller calls) : h.caller = caller ∧ h.answer = .ok () := by
  obtain ⟨c, -, rfl⟩ := List.mem_map.1 hmem
  exact ⟨rfl, rfl⟩

namespace Follows

variable {caller : Bytes} {plan done rest : List Call} {outcome : Outcome Receipt}

theorem of_answered (split : plan = done ++ rest)
    (hok : ∀ receipt : Receipt, outcome = .ok receipt → done = plan ∧ receipt.calls = plan) :
    Follows caller plan outcome (answered caller done) where
  ordered := by
    rw [map_call_answered, split]
    exact List.prefix_append done rest
  callers := fun _ hmem => (caller_of_mem_answered hmem).1
  failed := by
    intro n h e hget hanswer
    have hgood := (caller_of_mem_answered (List.mem_of_getElem? hget)).2
    rw [hgood] at hanswer
    cases hanswer
  settled := by
    intro receipt h
    rw [map_call_answered]
    exact hok receipt h

theorem of_stopped {c : Call} {e : Fault} (split : plan = done ++ c :: rest) :
    Follows caller plan (.error e) (answered caller done ++ [⟨caller, c, .error e⟩]) where
  ordered := by
    rw [List.map_append, map_call_answered, split]
    exact ⟨rest, List.append_assoc done [c] rest⟩
  callers := by
    intro h hmem
    rcases List.mem_append.1 hmem with hmem | hmem
    · exact (caller_of_mem_answered hmem).1
    · rw [List.mem_singleton.1 hmem]
  failed := by
    intro n h e' hget hanswer
    have hlength : (answered caller done).length = done.length := List.length_map _
    by_cases hn : n < done.length
    · rw [List.getElem?_append_left (by omega)] at hget
      have hgood := (caller_of_mem_answered (List.mem_of_getElem? hget)).2
      rw [hgood] at hanswer
      cases hanswer
    · rw [List.getElem?_append_right (by omega), List.getElem?_singleton] at hget
      split at hget
      · next hlast =>
        cases hget
        cases hanswer
        have hn' : n = done.length := by omega
        refine ⟨?_, ?_, rfl⟩
        · rw [List.length_append, hlength, hn']
          rfl
        · have htake : plan.take (n + 1) = done ++ [c] := by
            rw [split, hn', List.take_length_add_append]
            rfl
          rw [htake, List.map_append, map_call_answered]
          rfl
      · cases hget
  settled := by
    intro receipt h
    cases h

end Follows

theorem Program.Course.follows {p : Program} {host : Host σ} {accounts : List AccountView}
    {data : Bytes} {s : σ} {outcome : Outcome Receipt} {handed : List Call}
    {t : σ × List Handover}
    (h : Course p host.traced accounts data (s, []) outcome handed t) :
    Follows p.address (planned p.rules accounts data) outcome t.2 := by
  cases h with
  | rejected => exact .of_answered (List.nil_append _).symm (fun _ h => by cases h)
  | exhausted r split settles =>
    rw [Host.traced_settles settles]
    exact .of_answered split (fun _ h => by cases h)
  | @stopped done rest c t u e split settles fails =>
    rw [Host.traced_invoke host p.address c t.1 t.2] at fails
    obtain ⟨hanswer, hstate⟩ := Prod.mk.inj fails
    rw [← hstate, hanswer, Host.traced_settles settles]
    exact .of_stopped split
  | @settled receipt t hcalls _ settles =>
    rw [Host.traced_settles settles]
    have split : planned p.rules accounts data = receipt.calls ++ [] := by
      rw [List.append_nil, hcalls]
    refine .of_answered split ?_
    intro receipt' h
    cases h
    exact ⟨hcalls, hcalls⟩

theorem Program.process_traced (p : Program) (host : Host σ) (accounts : List AccountView)
    (data : Bytes) (metrics : Option Metrics) (s : σ) :
    let watched := p.process host.traced accounts data metrics (s, [])
    let bare := p.process host accounts data metrics s
    watched.outcome = bare.outcome ∧ watched.handed = bare.handed ∧ watched.host.1 = bare.host := by
  intro watched bare
  have himage : watched.Image Prod.fst bare :=
    host.traced_image.process p accounts data metrics metrics (s, [])
  exact ⟨himage.outcome.symm, himage.handed.symm, himage.host.symm⟩

/-- The plan depends on the rules, the accounts and the data, and neither on the budgets nor on what
the host does with the calls. -/
theorem Program.process_follows_plan (p : Program) (accounts : List AccountView) (data : Bytes) :
    ∃ plan, Plan p.rules accounts data plan ∧
      ∀ {σ : Type} (host : Host σ) (metrics : Option Metrics) (s : σ),
        let watched := p.process host.traced accounts data metrics (s, [])
        let bare := p.process host accounts data metrics s
        Follows p.address plan watched.outcome watched.host.2 ∧
          watched.outcome = bare.outcome ∧ watched.handed = bare.handed ∧
          watched.host.1 = bare.host := by
  refine ⟨planned p.rules accounts data, plan_planned p.rules accounts data, ?_⟩
  intro σ host metrics s watched bare
  have course := process_course p host.traced accounts data metrics (s, [])
  exact ⟨course.follows, process_traced p host accounts data metrics s⟩

end Settlement
