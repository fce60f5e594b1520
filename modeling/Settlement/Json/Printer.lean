import Settlement.Json.Value
import Settlement.Bytes.Hex

/-! Writing JSON in ASCII: on one line, or with each item on a line of its own, two blanks deeper
than its container. -/

namespace Settlement.Json

def unitEscape (n : Nat) : List Char := '\\' :: 'u' :: Hex.digits 4 n

/-- A code point in a string. One beyond 16 bits is a pair of surrogates. -/
def escapePoint (c : CodePoint) : List Char :=
  let n := c.val
  if n = 0x22 then ['\\', '"']
  else if n = 0x5c then ['\\', '\\']
  else if n = 0x08 then ['\\', 'b']
  else if n = 0x0c then ['\\', 'f']
  else if n = 0x0a then ['\\', 'n']
  else if n = 0x0d then ['\\', 'r']
  else if n = 0x09 then ['\\', 't']
  else if 0x20 ≤ n ∧ n < 0x7f then [Char.ofNat n]
  else if n < 0x10000 then unitEscape n
  else unitEscape (0xd800 + (n - 0x10000) / 0x400) ++ unitEscape (0xdc00 + (n - 0x10000) % 0x400)

def quote (t : Text) : List Char := '"' :: t.flatMap escapePoint ++ ['"']

def ofInt (n : Int) : List Char := (toString n).toList

def ofFloat : Binary64 → List Char
  | .nan => ['N', 'a', 'N']
  | .infinite false => "Infinity".toList
  | .infinite true => "-Infinity".toList
  | .finite s m e => Decimal.ofFinite s m e

def newline (level : Nat) : List Char := '\n' :: List.replicate (2 * level) ' '

/-- What stands between the parts of a document: with `some level` line breaks, otherwise nothing.
-/
def gap : Option Nat → List Char
  | some level => newline level
  | none => []

def deeper (level : Option Nat) : Option Nat := level.map (· + 1)

mutual

def render (level : Option Nat) : Value → List Char
  | .null => "null".toList
  | .bool true => "true".toList
  | .bool false => "false".toList
  | .int n => ofInt n
  | .float x => ofFloat x
  | .text t => quote t
  | .list [] => ['[', ']']
  | .list (v :: vs) =>
    '[' :: gap (deeper level) ++ render (deeper level) v ++ renderItems (deeper level) vs ++
      gap level ++ [']']
  | .object [] => ['\x7b', '\x7d']
  | .object ((n, v) :: fs) =>
    '\x7b' :: gap (deeper level) ++ quote n ++ [':', ' '] ++ render (deeper level) v ++
      renderFields (deeper level) fs ++ gap level ++ ['\x7d']

def renderItems (level : Option Nat) : List Value → List Char
  | [] => []
  | v :: vs => ',' :: gap level ++ render level v ++ renderItems level vs

def renderFields (level : Option Nat) : List (Text × Value) → List Char
  | [] => []
  | (n, v) :: fs =>
    ',' :: gap level ++ quote n ++ [':', ' '] ++ render level v ++ renderFields level fs

end

def compact (v : Value) : List Char := render none v

def indented (v : Value) : List Char := render (some 0) v

end Settlement.Json
