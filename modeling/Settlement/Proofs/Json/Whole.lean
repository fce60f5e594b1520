import Settlement.Json.Arithmetic

/-! Values that are whole numbers, flags among them, and arithmetic on them. -/

namespace Settlement

namespace Json.Value

/-- The whole number that a value is. A flag counts as one. -/
def integer? (v : Value) : Option Int := v.number?.bind Number.int?

variable {v : Value} {m : Int}

@[simp] theorem int?_int (n : Int) : Number.int? (.int n) = some n := rfl

@[simp] theorem integer?_int (n : Int) : (int n).integer? = some n := rfl

theorem less_of_integer? (h : v.integer? = some m) (n : Int) :
    v.less (.int n) = .ok (decide (m < n)) := by
  obtain ⟨x, hx, hm⟩ := Option.bind_eq_some_iff.1 h
  have hless : x.less (.int n) = (Number.int m).less (.int n) := by
    simp only [Number.less, Number.compare?, hm, int?_int]
  cases v <;> simp_all [less, number?, Number.less_int]

theorem sub_of_integer? (h : v.integer? = some m) (n : Int) :
    v.sub (.int n) = .ok (.int (m - n)) := by
  obtain ⟨x, hx, hm⟩ := Option.bind_eq_some_iff.1 h
  have hsub : x.sub? (.int n) = some (.int (m - n)) := by
    simp only [Number.sub?, Number.combine?, hm, int?_int]
  have hn : (int n).number? = some (.int n) := rfl
  simp only [sub, compute, hx, hn, hsub, ofNumber]

theorem add_of_integer? (h : v.integer? = some m) (n : Int) :
    v.add (.int n) = .ok (.int (m + n)) := by
  obtain ⟨x, hx, hm⟩ := Option.bind_eq_some_iff.1 h
  have hadd : x.add? (.int n) = some (.int (m + n)) := by
    simp only [Number.add?, Number.combine?, hm, int?_int]
  have hn : (int n).number? = some (.int n) := rfl
  simp only [add, compute, hx, hn, hadd, ofNumber]

end Json.Value

end Settlement
