import Settlement.Json.Value
import Settlement.Fault.Basic
import Settlement.Bytes.Hex
import Settlement.Text.Numeral

/-! Fields of objects that stand for a structure: which names they may have, and what their values
have to be. -/

namespace Settlement.Json

abbrev Fields := List (Text × Value)

namespace Fields

def known (names : List String) (fields : Fields) : Outcome Unit :=
  if fields.all fun f => names.any fun n => Text.of n == f.1 then .ok () else .error .wrongKind

def get (name : String) (fields : Fields) : Outcome Value :=
  match field? (Text.of name) fields with
  | some v => .ok v
  | none => .error .wrongKind

/-- There is a field for every name, and no other field. -/
def exactly (names : List String) (fields : Fields) : Outcome Unit := do
  known names fields
  names.forM fun n => do
    let _ ← get n fields

end Fields

namespace Value

def hex (v : Value) : Outcome Bytes :=
  match v with
  | .text t =>
    match t.toChars?.bind Hex.decode with
    | some bs => .ok bs
    | none => .error .badHex
  | _ => .error .wrongKind

def fieldInt (v : Value) : Outcome Int :=
  match v.number?.bind Number.int? with
  | some n => .ok n
  | none => .error .fieldRange

/-- A whole number, with another fault for what is none. -/
def wholeOr (fault : Fault) (v : Value) : Outcome Int :=
  match v.number?.bind Number.int? with
  | some n => .ok n
  | none => .error fault

/-- The whole part of a number, or the number that text spells. -/
def whole (v : Value) : Outcome Int :=
  match v with
  | .text t => match Numeral.int? t with
    | some n => .ok n
    | none => .error .badNumeral
  | v => match v.number? with
    | none => .error .wrongKind
    | some (.float .nan) => .error .badNumeral
    | some (.float (.infinite _)) => .error .wordRange
    | some (.float (.finite s m e)) => .ok (Binary64.truncate s m e)
    | some (.flag b) => .ok (if b then 1 else 0)
    | some (.int n) => .ok n

/-- What a value consists of: items, the code points of text, or the names of fields. -/
def items : Value → Outcome (List Value)
  | .list items => .ok items
  | .text t => .ok (t.map fun c => .text [c])
  | .object fields => .ok (fields.map fun f => .text f.1)
  | _ => .error .wrongKind

/-- The item at a place. An object has none, for its names are text. -/
def item (place : Nat) : Value → Outcome Value
  | .object _ => .error .missingKey
  | v => do
    match (← v.items)[place]? with
    | some item => return item
    | none => .error .outOfBounds

def ofHex (bs : Bytes) : Value := .text (Text.ofChars (Settlement.Hex.encode bs))

def ofString (s : String) : Value := .text (Text.of s)

def string (v : Value) : Outcome String :=
  match v with
  | .text t =>
    match t.toChars? with
    | some cs => .ok (String.ofList cs)
    | none => .error .loneSurrogate
  | _ => .error .noMember

end Value
end Settlement.Json
