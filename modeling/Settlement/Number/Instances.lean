/-! Powers and sums of whole numbers are those of the core library, whatever else is in reach. -/

namespace Settlement

@[default_instance 20000]
instance (priority := 2000) natPow : Pow Nat Nat := instPowNat

@[default_instance 19999]
instance (priority := 2000) intPow : Pow Int Nat := instPowNat

instance (priority := 2000) natZero : Zero Nat := ⟨0⟩

instance (priority := 2000) intZero : Zero Int := ⟨0⟩

end Settlement
