import Settlement.Bytes.Word

/-! A field spliced into bytes: what is read from it, and what is read beside it. -/

namespace Settlement.Bytes

variable {start : Nat} {field bs : Bytes}

theorem slice_front {first : Bytes} {count : Nat} (hfirst : first.length = count) (rest : Bytes) :
    slice 0 count (first ++ rest) = first := by
  rw [slice, List.drop_zero, ← hfirst, List.take_left]

theorem slice_middle {front middle : Bytes} {count : Nat} (hfront : front.length = start)
    (hmiddle : middle.length = count) (rest : Bytes) :
    slice start count (front ++ middle ++ rest) = middle := by
  rw [slice, List.append_assoc, ← hfront, List.drop_left, ← hmiddle, List.take_left]

theorem getElem?_slice (start count i : Nat) (bs : Bytes) :
    (slice start count bs)[i]? = if i < count then bs[start + i]? else none := by
  rw [slice, List.getElem?_take, List.getElem?_drop]

theorem getElem?_splice (h : start ≤ bs.length) (i : Nat) :
    (splice start field bs)[i]? =
      if i < start then bs[i]?
      else if i < start + field.length then field[i - start]? else bs[i]? := by
  have hfront : (bs.take start).length = start := List.length_take_of_le h
  rw [splice, List.append_assoc]
  by_cases hbefore : i < start
  · rw [List.getElem?_append_left (by omega), List.getElem?_take_of_lt hbefore, if_pos hbefore]
  · rw [List.getElem?_append_right (by omega), hfront, if_neg hbefore]
    by_cases hwithin : i < start + field.length
    · rw [List.getElem?_append_left (by omega), if_pos hwithin]
    · rw [List.getElem?_append_right (by omega), List.getElem?_drop, if_neg hwithin]
      congr 1
      omega

theorem slice_splice_self (h : start ≤ bs.length) {count : Nat} (hfield : field.length = count) :
    slice start count (splice start field bs) = field := by
  rw [← hfield]
  exact slice_splice h

/-- A part that does not meet the field is read as before. -/
theorem slice_splice_apart (h : start ≤ bs.length) {i count : Nat}
    (hapart : i + count ≤ start ∨ start + field.length ≤ i) :
    slice i count (splice start field bs) = slice i count bs := by
  refine List.ext_getElem? fun j => ?_
  rw [getElem?_slice, getElem?_slice]
  by_cases hj : j < count
  · rw [if_pos hj, if_pos hj, getElem?_splice h]
    rcases hapart with hbefore | hafter
    · rw [if_pos (by omega)]
    · rw [if_neg (by omega), if_neg (by omega)]
  · rw [if_neg hj, if_neg hj]

/-- Of two fields in one place the second counts. -/
theorem splice_splice {other : Bytes} (hsame : other.length = field.length)
    (h : start + field.length ≤ bs.length) :
    splice start other (splice start field bs) = splice start other bs := by
  have hlength : (splice start field bs).length = bs.length := length_splice h
  refine List.ext_getElem? fun i => ?_
  rw [getElem?_splice (by omega), getElem?_splice (by omega), getElem?_splice (by omega)]
  by_cases hbefore : i < start
  · simp only [hbefore, if_true]
  · by_cases hwithin : i < start + other.length
    · simp only [hbefore, hwithin, if_false, if_true]
    · simp only [hbefore, hwithin, hsame ▸ hwithin, if_false]

/-- The same bytes, but for so many from a place on. -/
structure SameOutside (start width : Nat) (bs bs' : Bytes) : Prop where
  length : bs'.length = bs.length
  outside : ∀ i, i < start ∨ start + width ≤ i → bs'[i]? = bs[i]?

theorem splice_sameOutside {width : Nat} (hfield : field.length = width)
    (h : start + width ≤ bs.length) : SameOutside start width bs (splice start field bs) where
  length := length_splice (by omega)
  outside := by
    intro i hi
    rw [getElem?_splice (by omega)]
    rcases hi with hbefore | hafter
    · rw [if_pos hbefore]
    · rw [if_neg (by omega), if_neg (by omega)]

end Settlement.Bytes
