import Settlement.Account.Field
import Settlement.Text.Utf8

/-! Reading instruction data from front to back: little-endian words, bytes, and strings after their
length. -/

namespace Settlement

structure Cursor where
  offset : Nat
  rest : Bytes

namespace Cursor

def start (data : Bytes) : Cursor := ⟨0, data⟩

def place (data : Bytes) (offset : Nat) : Cursor := ⟨offset, data.drop offset⟩

def skip (n : Nat) (c : Cursor) : Cursor := ⟨c.offset + n, c.rest.drop n⟩

abbrev Reader (α : Type) := StateT Cursor (Except Refusal) α

def u64 : Reader UInt64 := fun c =>
  if c.rest.length < 8 then .error (.truncated .u64 (.int c.offset))
  else .ok (UInt64.ofNat (Bytes.value (c.rest.take 8)), c.skip 8)

def u8 : Reader UInt8 := fun c =>
  match c.rest with
  | [] => .error (.truncated .u8 (.int c.offset))
  | b :: _ => .ok (b, c.skip 1)

/-- Four bytes of length, then as many bytes of UTF-8. Faults name the place where the length
stands. -/
def string : Reader String := fun c =>
  if c.rest.length < 4 then .error (.truncated .stringLength (.int c.offset))
  else
    let length := Bytes.value (c.rest.take 4)
    let body := c.rest.drop 4
    if body.length < length then .error (.truncated .string (.int c.offset))
    else match Utf8.decode? (body.take length) with
      | some s => .ok (s, c.skip (4 + length))
      | none => .error (.notUtf8 (.int c.offset))

/-- What a reader finds at the front of data. What it leaves over does not count. -/
def read {α : Type} (reader : Reader α) (data : Bytes) : Except Refusal α :=
  (reader (start data)).map Prod.fst

end Cursor

end Settlement
