import Settlement.Fault.Refusal

/-! Memos, `zupy:v1:source:identifier`. The identifier is the rest of the text and may hold colons.
-/

namespace Settlement.Memo

def colon : CodePoint := CodePoint.ofChar ':'

def scheme : Text := Text.of "zupy"

def version : Text := Text.of "v1"

def splitColon? : Text → Option (Text × Text)
  | [] => none
  | c :: rest =>
    if c = colon then some ([], rest)
    else (splitColon? rest).map fun (before, after) => (c :: before, after)

def make (source identifier : Text) : Text :=
  scheme ++ colon :: version ++ colon :: source ++ colon :: identifier

def parse? (memo : Text) : Option (Text × Text) := do
  let (first, rest) ← splitColon? memo
  let (second, rest) ← splitColon? rest
  let (source, identifier) ← splitColon? rest
  guard (first = scheme ∧ second = version ∧ source ≠ [] ∧ identifier ≠ [])
  return (source, identifier)

def isValid (memo : Text) : Bool := (parse? memo).isSome

def check (memo : Text) : Except Refusal Unit :=
  if isValid memo then .ok () else .error (.memoFormat memo)

end Settlement.Memo
