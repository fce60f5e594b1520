import Settlement.Ledger.Store

/-! The values of a finite map, and sums over them. A write changes a sum by the difference. -/

namespace Settlement

namespace Store

variable {α : Type}

/-! Values and their keys. -/

theorem mem_of_lookup {key : Bytes} {a : α} {entries : List (Bytes × α)}
    (h : lookup key entries = some a) : (key, a) ∈ entries := by
  induction entries with
  | nil => cases h
  | cons e rest ih =>
    obtain ⟨k, b⟩ := e
    by_cases hk : k = key
    · simp only [lookup, hk, if_true, Option.some.injEq] at h
      rw [hk, h]
      exact List.mem_cons_self
    · simp only [lookup, hk, if_false] at h
      exact List.mem_cons_of_mem _ (ih h)

theorem lookup_of_mem {key : Bytes} {a : α} {entries : List (Bytes × α)}
    (nodup : (entries.map Prod.fst).Nodup) (h : (key, a) ∈ entries) :
    lookup key entries = some a := by
  induction entries with
  | nil => cases h
  | cons e rest ih =>
    obtain ⟨k, b⟩ := e
    simp only [List.map_cons, List.nodup_cons] at nodup
    rcases List.mem_cons.1 h with hfirst | hrest
    · cases hfirst
      simp only [lookup, if_true]
    · have hother : k ≠ key := by
        rintro rfl
        exact nodup.1 (List.mem_map_of_mem hrest)
      simp only [lookup, hother, if_false, ih nodup.2 hrest]

theorem mem_values_iff {s : Store α} {a : α} : a ∈ s.values ↔ ∃ key, s.get? key = some a := by
  constructor
  · intro h
    obtain ⟨⟨key, b⟩, hmem, rfl⟩ := List.mem_map.1 h
    exact ⟨key, lookup_of_mem s.nodup hmem⟩
  · rintro ⟨key, h⟩
    exact List.mem_map_of_mem (mem_of_lookup h)

/-! Sums. -/

section Sum

variable (f : α → Int)

/-- The sum of what the values count for. -/
def sum (s : Store α) : Int := (s.values.map f).sum

theorem sum_replace (key : Bytes) (value : α) (entries : List (Bytes × α)) :
    ((replace key value entries).map fun e => f e.2).sum =
      (entries.map fun e => f e.2).sum - ((lookup key entries).map f).getD 0 + f value := by
  induction entries with
  | nil => simp [replace, lookup]
  | cons e rest ih =>
    obtain ⟨k, a⟩ := e
    by_cases hk : k = key
    · simp only [replace, lookup, hk, if_true, List.map_cons, List.sum_cons, Option.map_some,
        Option.getD_some]
      omega
    · simp only [replace, lookup, hk, if_false, List.map_cons, List.sum_cons, ih]
      omega

theorem sum_set (s : Store α) (key : Bytes) (value : α) :
    (s.set key value).sum f = s.sum f - ((s.get? key).map f).getD 0 + f value := by
  simp only [sum, values, List.map_map]
  exact sum_replace f key value s.entries

end Sum

end Store

end Settlement
