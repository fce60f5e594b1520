import Settlement.Json.Value
import Settlement.Bytes.Hex
import Settlement.Text.Numeral

/-! Reading a JSON document. Besides the standard's values there are `NaN` and the infinities, a
name that comes twice keeps its first place and its last value, and a surrogate may stand alone.
Lists and objects may stand inside each other for as many levels as the caller gives. -/

namespace Settlement.Json

inductive ReadFault where
  | malformed
  | tooManyDigits
  | tooDeep
deriving DecidableEq

abbrev Read (α : Type) := List Char → Except ReadFault (α × List Char)

def isBlank (c : Char) : Bool := c == ' ' || c == '\t' || c == '\n' || c == '\r'

def skipBlanks (cs : List Char) : List Char := cs.dropWhile isBlank

def hexUnit? (a b c d : Char) : Option (Fin 0x10000) := do
  let a ← Hex.digitValue? a
  let b ← Hex.digitValue? b
  let c ← Hex.digitValue? c
  let d ← Hex.digitValue? d
  return Fin.ofNat 0x10000 (((16 * a + b) * 16 + c) * 16 + d)

def isHighSurrogate (n : Nat) : Bool := 0xd800 ≤ n && n < 0xdc00

def isLowSurrogate (n : Nat) : Bool := 0xdc00 ≤ n && n < 0xe000

def joined (high low : Nat) : CodePoint :=
  Fin.ofNat 0x110000 (0x10000 + (high - 0xd800) * 0x400 + (low - 0xdc00))

def plainEscape? : Char → Option Char
  | '"' => some '"'
  | '\\' => some '\\'
  | '/' => some '/'
  | 'b' => some '\x08'
  | 'f' => some '\x0c'
  | 'n' => some '\n'
  | 'r' => some '\r'
  | 't' => some '\t'
  | _ => none

/-- The text up to the closing quotation mark. A pair of surrogates is one code point. -/
def stringBody : Read Text
  | [] => .error .malformed
  | '"' :: rest => .ok ([], rest)
  | '\\' :: 'u' :: a :: b :: c :: d :: '\\' :: 'u' :: e :: f :: g :: h :: rest =>
    match hexUnit? a b c d, hexUnit? e f g h with
    | some x, some y =>
      if isHighSurrogate x.val && isLowSurrogate y.val then do
        let (t, rest) ← stringBody rest
        return (joined x.val y.val :: t, rest)
      else do
        let (t, rest) ← stringBody ('\\' :: 'u' :: e :: f :: g :: h :: rest)
        return (x.castLE (by decide) :: t, rest)
    | _, _ => .error .malformed
  | '\\' :: 'u' :: a :: b :: c :: d :: rest =>
    match hexUnit? a b c d with
    | some x => do
      let (t, rest) ← stringBody rest
      return (x.castLE (by decide) :: t, rest)
    | none => .error .malformed
  | '\\' :: e :: rest =>
    match plainEscape? e with
    | some c => do
      let (t, rest) ← stringBody rest
      return (CodePoint.ofChar c :: t, rest)
    | none => .error .malformed
  | c :: rest =>
    if c = '\\' ∨ c < ' ' then .error .malformed
    else do
      let (t, rest) ← stringBody rest
      return (CodePoint.ofChar c :: t, rest)

def digitsValue (ds : List Char) : Nat :=
  ds.foldl (fun n c => 10 * n + (c.toNat - 48)) 0

def isDigit (c : Char) : Bool := '0' ≤ c && c ≤ '9'

def fraction (cs : List Char) : List Char × List Char :=
  match cs with
  | '.' :: rest =>
    match rest.takeWhile isDigit with
    | [] => ([], cs)
    | ds => (ds, rest.dropWhile isDigit)
  | _ => ([], cs)

def power (cs : List Char) : Option Int × List Char :=
  match cs with
  | e :: rest =>
    if e = 'e' ∨ e = 'E' then
      let (negative, body) := match rest with
        | '-' :: more => (true, more)
        | '+' :: more => (false, more)
        | _ => (false, rest)
      match body.takeWhile isDigit with
      | [] => (none, cs)
      | ds => (some (Binary64.signed negative (digitsValue ds)), body.dropWhile isDigit)
    else (none, cs)
  | [] => (none, cs)

/-- A number without its sign: whole if it has neither fraction nor power. -/
def unsigned (negative : Bool) : Read Value := fun cs =>
  let whole := match cs with
    | '0' :: _ => ['0']
    | _ => cs.takeWhile isDigit
  match whole with
  | [] => .error .malformed
  | _ =>
    let (frac, rest) := fraction (cs.drop whole.length)
    let (exponent, rest) := power rest
    if frac.isEmpty && exponent.isNone then
      if Numeral.maxDigits < whole.length then .error .tooManyDigits
      else .ok (.int (Binary64.signed negative (digitsValue whole)), rest)
    else
      let digits := digitsValue (whole ++ frac)
      .ok (.float (.ofDecimal negative digits (exponent.getD 0 - frac.length)), rest)

mutual

/-- A value at the start of the text, with room for lists and objects inside each other. The second
argument bounds the number of steps, of which no character takes more than two. -/
def value : Nat → Nat → Read Value
  | _, 0, _ => .error .malformed
  | room, fuel + 1, cs =>
    match cs with
    | '"' :: rest => do
      let (t, rest) ← stringBody rest
      return (.text t, rest)
    | '\x7b' :: rest =>
      match room, skipBlanks rest with
      | 0, _ => .error .tooDeep
      | _ + 1, '\x7d' :: rest => .ok (.object [], rest)
      | room + 1, rest => do
        let (fields, rest) ← members room fuel [] rest
        return (.object fields, rest)
    | '[' :: rest =>
      match room, skipBlanks rest with
      | 0, _ => .error .tooDeep
      | _ + 1, ']' :: rest => .ok (.list [], rest)
      | room + 1, rest => do
        let (items, rest) ← elements room fuel rest
        return (.list items, rest)
    | 'n' :: 'u' :: 'l' :: 'l' :: rest => .ok (.null, rest)
    | 't' :: 'r' :: 'u' :: 'e' :: rest => .ok (.bool true, rest)
    | 'f' :: 'a' :: 'l' :: 's' :: 'e' :: rest => .ok (.bool false, rest)
    | 'N' :: 'a' :: 'N' :: rest => .ok (.float .nan, rest)
    | 'I' :: 'n' :: 'f' :: 'i' :: 'n' :: 'i' :: 't' :: 'y' :: rest =>
      .ok (.float (.infinite false), rest)
    | '-' :: 'I' :: 'n' :: 'f' :: 'i' :: 'n' :: 'i' :: 't' :: 'y' :: rest =>
      .ok (.float (.infinite true), rest)
    | '-' :: rest => unsigned true rest
    | _ => unsigned false cs

def elements : Nat → Nat → Read (List Value)
  | _, 0, _ => .error .malformed
  | room, fuel + 1, cs => do
    let (v, rest) ← value room fuel cs
    match skipBlanks rest with
    | ']' :: rest => return ([v], rest)
    | ',' :: rest => do
      let (vs, rest) ← elements room fuel (skipBlanks rest)
      return (v :: vs, rest)
    | _ => .error .malformed

def members : Nat → Nat → List (Text × Value) → Read (List (Text × Value))
  | _, 0, _, _ => .error .malformed
  | room, fuel + 1, before, cs =>
    match cs with
    | '"' :: rest => do
      let (name, rest) ← stringBody rest
      match skipBlanks rest with
      | ':' :: rest => do
        let (v, rest) ← value room fuel (skipBlanks rest)
        let fields := setField name v before
        match skipBlanks rest with
        | '\x7d' :: rest => return (fields, rest)
        | ',' :: rest => members room fuel fields (skipBlanks rest)
        | _ => .error .malformed
      | _ => .error .malformed
    | _ => .error .malformed

end

/-- The value of a document that has no more levels than there is room for. -/
def readWithin (room : Nat) (cs : List Char) : Except ReadFault Value := do
  let (v, rest) ← value room (2 * cs.length + 1) (skipBlanks cs)
  match skipBlanks rest with
  | [] => return v
  | _ => .error .malformed

end Settlement.Json
