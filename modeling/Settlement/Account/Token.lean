import Settlement.Account.Field
import Settlement.Json.Fields

/-! Token accounts and mints, in the layouts of the token program: 165 bytes that start with the
mint, the owner and the amount, and 82 bytes with the supply from byte 36 on. Writers leave all
other bytes as they are. -/

namespace Settlement

structure TokenAccount where
  mint : Bytes
  owner : Bytes
  amount : Nat
deriving DecidableEq

namespace TokenAccount

def size : Nat := 165

def amountOffset : Nat := 64

/-- What the first 72 bytes say. What follows them may have any length. -/
def decode (data : Bytes) : Outcome TokenAccount :=
  if data.length < 72 then .error .fieldBounds
  else .ok ⟨data.slice 0 32, data.slice 32 32, Bytes.value (data.slice 64 8)⟩

/-- A new account: the three fields and, at byte 108, the mark that it is in use. -/
def pack (mint owner : Bytes) (amount : Int) : Outcome Bytes := do
  let amount ← Field.unsigned 8 amount
  return Bytes.fit 32 mint ++ Bytes.fit 32 owner ++ amount ++ List.replicate 36 0 ++ [1] ++
    List.replicate 56 0

/-- Puts the amount into bytes 64 to 71. Data that ends before them grows. -/
def withAmount (data : Bytes) (amount : Int) : Outcome Bytes := do
  return Bytes.splice amountOffset (← Field.word amount) data

end TokenAccount

namespace Mint

def size : Nat := 82

def supplyOffset : Nat := 36

/-- A new mint: the supply, the number of decimals, and the mark that it is in use. -/
def pack (supply decimals : Int) : Outcome Bytes := do
  let supply ← Field.unsigned 8 supply
  let decimals ← Field.byte decimals
  return List.replicate 36 0 ++ supply ++ [decimals, 1] ++ List.replicate 36 0

/-- A new mint from values. The supply is judged before the decimals. -/
def packValues (supply decimals : Json.Value) : Outcome Bytes := do
  let supply ← supply.fieldInt
  let _ ← Field.unsigned 8 supply
  pack supply (← decimals.wholeOr .wrongKind)

def supply (data : Bytes) : Outcome Nat :=
  if data.length < supplyOffset + 8 then .error .fieldBounds
  else .ok (Bytes.value (data.slice supplyOffset 8))

def withSupply (data : Bytes) (supply : Int) : Outcome Bytes := do
  let supply ← Field.unsigned 8 supply
  if data.length < supplyOffset + 8 then .error .fieldBounds
  else return Bytes.splice supplyOffset supply data

end Mint
end Settlement
