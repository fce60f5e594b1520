import Settlement.Fault.Refusal
import Settlement.Address.Derivation

/-! Everything that can end an action: the signals of aborted instructions, and the failures of
values that do not fit, which no instruction is allowed to answer with. -/

namespace Settlement

inductive Fault where
  | signal (s : Signal)
  | derivation (d : DerivationFault)
  | badRatio (name numerator denominator : Text)
  /-- A value outside its field, or of another kind than its field. -/
  | fieldRange
  /-- A field that reaches beyond the bytes it is read from or written to. -/
  | fieldBounds
  /-- A number outside the words that it has to be written in. -/
  | wordRange
  /-- A number that is no byte. -/
  | byteRange
  | badHex
  /-- Text that is no whole number, or a number that has no whole part. -/
  | badNumeral
  /-- A number of items other than the one asked for. -/
  | wrongCount
  | unknownCode
  /-- A word that names no request. -/
  | unknownRequest
  | badSeed
  | negativeIncrement
  | wrongKind
  | noMember
  | missingKey
  | outOfBounds
  | divisionByZero
  /-- A result that no memory holds. -/
  | tooLarge
  | noHost
  | malformedDocument
  /-- Lists and objects inside each other that cannot be followed to their end. -/
  | tooDeep
  /-- Lists and objects inside each other that a snapshot has no room for. -/
  | noRoom
  /-- Text with a surrogate, which has no encoding. -/
  | loneSurrogate
deriving DecidableEq

namespace Fault

def refused (r : Refusal) : Fault := .signal r.signal

/-- Faults that abort an instruction and nothing more. -/
def signal? : Fault → Option Signal
  | signal s => some s
  | _ => none

def message? : Fault → Option Json.Value
  | signal s => some s.message
  | derivation d => some (.text d.message)
  | badRatio name numerator denominator =>
    some (.text (Text.of "Invalid split ratio for " ++ name ++ Text.of ": " ++ numerator ++
      Text.of "/" ++ denominator))
  | _ => none

end Fault

abbrev Outcome (α : Type) := Except Fault α

def refuse {α : Type} (r : Refusal) : Outcome α := .error (.refused r)

def derived {α : Type} : Except DerivationFault α → Outcome α
  | .ok a => .ok a
  | .error d => .error (.derivation d)

end Settlement
