import Settlement.Bytes.Word

/-! Cutting bytes into consecutive fields of given widths. -/

namespace Settlement.Bytes

def cut : (widths : List Nat) → Bytes → List Bytes
  | [], _ => []
  | w :: ws, bs => bs.take w :: cut ws (bs.drop w)

theorem cut_flatten {widths : List Nat} {fields : List Bytes} (rest : Bytes)
    (h : fields.map List.length = widths) : cut widths (fields.flatten ++ rest) = fields := by
  subst h
  induction fields with
  | nil => rfl
  | cons f fs ih =>
    simp only [List.map_cons, cut, List.flatten_cons, List.append_assoc, List.take_left,
      List.drop_left, ih]

theorem flatten_cut {widths : List Nat} {bs : Bytes} (h : bs.length = widths.sum) :
    (cut widths bs).flatten = bs := by
  induction widths generalizing bs with
  | nil => simpa [cut] using (List.length_eq_zero_iff.1 h).symm
  | cons w ws ih =>
    have hd : (bs.drop w).length = ws.sum := by simp [h]
    simp only [cut, List.flatten_cons, ih hd, List.take_append_drop]

end Settlement.Bytes
