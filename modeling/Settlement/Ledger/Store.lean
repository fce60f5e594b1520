import Settlement.Bytes.Word

/-! A finite map from keys to values. -/

namespace Settlement

structure Store (α : Type) where
  entries : List (Bytes × α)
  nodup : (entries.map Prod.fst).Nodup

namespace Store

variable {α : Type}

def empty : Store α := ⟨[], List.nodup_nil⟩

def lookup (key : Bytes) : List (Bytes × α) → Option α
  | [] => none
  | (k, a) :: rest => if k = key then some a else lookup key rest

def replace (key : Bytes) (value : α) : List (Bytes × α) → List (Bytes × α)
  | [] => [(key, value)]
  | (k, a) :: rest => if k = key then (k, value) :: rest else (k, a) :: replace key value rest

theorem mem_keys_replace {key k : Bytes} {value : α} {entries : List (Bytes × α)} :
    k ∈ (replace key value entries).map Prod.fst ↔ k = key ∨ k ∈ entries.map Prod.fst := by
  induction entries with
  | nil => simp [replace]
  | cons e rest ih =>
    obtain ⟨k', a⟩ := e
    by_cases h : k' = key
    · simp [replace, h]
    · simp only [replace, h, if_false, List.map_cons, List.mem_cons, ih]
      constructor
      · rintro (h | h | h) <;> simp [h]
      · rintro (h | h | h) <;> simp [h]

theorem nodup_replace {key : Bytes} {value : α} {entries : List (Bytes × α)}
    (h : (entries.map Prod.fst).Nodup) : ((replace key value entries).map Prod.fst).Nodup := by
  induction entries with
  | nil => simp [replace]
  | cons e rest ih =>
    obtain ⟨k, a⟩ := e
    simp only [List.map_cons, List.nodup_cons] at h
    by_cases hk : k = key
    · rw [replace, if_pos hk]
      exact List.nodup_cons.2 h
    · rw [replace, if_neg hk, List.map_cons, List.nodup_cons, mem_keys_replace]
      exact ⟨fun hm => hm.elim hk h.1, ih h.2⟩

def get? (s : Store α) (key : Bytes) : Option α := lookup key s.entries

def set (s : Store α) (key : Bytes) (value : α) : Store α :=
  ⟨replace key value s.entries, nodup_replace s.nodup⟩

def keys (s : Store α) : List Bytes := s.entries.map Prod.fst

def values (s : Store α) : List α := s.entries.map Prod.snd

theorem lookup_replace (key other : Bytes) (value : α) (entries : List (Bytes × α)) :
    lookup other (replace key value entries) =
      if other = key then some value else lookup other entries := by
  induction entries with
  | nil => simp [replace, lookup, eq_comm]
  | cons e rest ih =>
    obtain ⟨k, a⟩ := e
    by_cases hk : k = key
    · by_cases ho : other = key
      · simp [replace, lookup, hk, ho]
      · have : ¬ key = other := fun h => ho h.symm
        simp [replace, lookup, hk, ho, this]
    · by_cases ho : k = other
      · have : ¬ other = key := fun h => hk (ho.trans h)
        simp [replace, lookup, ho, this]
      · simp [replace, lookup, hk, ho, ih]

theorem get?_set (s : Store α) (key other : Bytes) (value : α) :
    (s.set key value).get? other = if other = key then some value else s.get? other :=
  lookup_replace key other value s.entries

@[simp] theorem get?_set_self (s : Store α) (key : Bytes) (value : α) :
    (s.set key value).get? key = some value := by
  simp [get?_set]

theorem get?_set_of_ne {s : Store α} {key other : Bytes} (h : other ≠ key) (value : α) :
    (s.set key value).get? other = s.get? other := by
  simp [get?_set, h]

end Store
end Settlement
