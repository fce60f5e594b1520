import Settlement.Bytes.Word
import Settlement.Fault.Basic
import Settlement.Text.Utf8

/-! Reading at any offset, where a negative one counts from the end of the data. Whether enough is
left is judged by the offset as it is given, and before its kind. -/

namespace Settlement.Peek

/-- The offset of a part, as a whole number. -/
def place (width : Nat) (part : Part) (data : Bytes) (offset : Number) : Outcome Int :=
  match offset.add? (.int width) with
  | none => .error .wordRange
  | some stop =>
    if (Number.int data.length).less stop then refuse (.truncated part offset)
    else match offset.int? with
      | some n => .ok n
      | none => .error .wrongKind

def fromStart (data : Bytes) (offset : Int) : Int :=
  if offset < 0 then data.length + offset else offset

/-- The number in a field. An offset has to be a signed word of eight bytes. -/
def field (width : Nat) (data : Bytes) (offset : Int) : Outcome Nat :=
  let start := fromStart data offset
  if offset < -2 ^ 63 then .error .wordRange
  else if start < 0 ∨ data.length < start + width then .error .fieldBounds
  else .ok (Bytes.value (data.slice start.toNat width))

/-- The bytes between two bounds, each of which counts from the end if it is negative. -/
def between (data : Bytes) (low high : Int) : Bytes :=
  let bound (i : Int) : Nat := (fromStart data i).toNat
  data.slice (bound low) (bound high - bound low)

def u64 (data : Bytes) (offset : Number) : Outcome (UInt64 × Int) := do
  let n ← place 8 .u64 data offset
  return (UInt64.ofNat (← field 8 data n), n + 8)

def u8 (data : Bytes) (offset : Number) : Outcome (UInt8 × Int) := do
  let n ← place 1 .u8 data offset
  let start := fromStart data n
  if start < 0 then .error .outOfBounds else return (data.getD start.toNat 0, n + 1)

def string (data : Bytes) (offset : Number) : Outcome (String × Int) := do
  let n ← place 4 .stringLength data offset
  let stop := n + 4 + (← field 4 data n)
  if data.length < stop then refuse (.truncated .string offset)
  else match Utf8.decode? (between data (n + 4) stop) with
    | some s => return (s, stop)
    | none => refuse (.notUtf8 offset)

end Settlement.Peek
