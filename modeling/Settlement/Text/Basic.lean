/-! Text as a list of code points. Surrogates are code points here: an escape in a document can
leave one standing alone, and such text has no `String`. -/

namespace Settlement

abbrev CodePoint := Fin 0x110000

theorem Char.toNat_lt_codePoints (c : Char) : c.toNat < 0x110000 := by
  rcases c.valid with h | ⟨_, h⟩
  · exact Nat.lt_trans h (by decide)
  · exact h

def CodePoint.ofChar (c : Char) : CodePoint := ⟨c.toNat, Char.toNat_lt_codePoints c⟩

theorem CodePoint.ofChar_inj {c d : Char} (h : ofChar c = ofChar d) : c = d :=
  Char.toNat_inj.1 (Fin.mk.inj h)

def CodePoint.toChar? (c : CodePoint) : Option Char :=
  if c.val.isValidChar then some (Char.ofNat c.val) else none

theorem CodePoint.toChar?_ofChar (c : Char) : (ofChar c).toChar? = some c := by
  rw [toChar?, if_pos (show (ofChar c).val.isValidChar from c.valid)]
  exact congrArg some (Char.ofNat_toNat c)

abbrev Text := List CodePoint

namespace Text

def ofChars (cs : List Char) : Text := cs.map CodePoint.ofChar

def toChars? (t : Text) : Option (List Char) := t.mapM CodePoint.toChar?

theorem toChars?_ofChars (cs : List Char) : toChars? (ofChars cs) = some cs := by
  induction cs with
  | nil => rfl
  | cons c cs ih =>
    simp only [toChars?, ofChars] at ih
    simp [toChars?, ofChars, CodePoint.toChar?_ofChar, ih]

theorem ofChars_inj {cs ds : List Char} (h : ofChars cs = ofChars ds) : cs = ds := by
  have := congrArg toChars? h
  simpa [toChars?_ofChars] using this

end Text

def Text.of (s : String) : Text := Text.ofChars s.toList

theorem Text.of_inj {s t : String} (h : Text.of s = Text.of t) : s = t :=
  String.toList_injective (Text.ofChars_inj h)

def Text.ofInt (n : Int) : Text := Text.of (toString n)

end Settlement
