import Settlement.Number.Basic

/-! Values of JSON documents. Objects keep their fields in the order in which the names first
appear. -/

namespace Settlement.Json

inductive Value where
  | null
  | bool (b : Bool)
  | int (n : Int)
  | float (x : Binary64)
  | text (t : Text)
  | list (items : List Value)
  | object (fields : List (Text × Value))

def field? {α : Type} (name : Text) (fields : List (Text × α)) : Option α :=
  (fields.find? fun f => f.1 == name).map Prod.snd

/-- Puts a field at the end, or a new value in the place of the one of that name. -/
def setField {α : Type} (name : Text) (value : α) : List (Text × α) → List (Text × α)
  | [] => [(name, value)]
  | (n, v) :: rest => if n = name then (n, value) :: rest else (n, v) :: setField name value rest

namespace Value

def ofNumber : Number → Value
  | .flag b => .bool b
  | .int n => .int n
  | .float x => .float x

def number? : Value → Option Number
  | .bool b => some (.flag b)
  | .int n => some (.int n)
  | .float x => some (.float x)
  | _ => none

theorem number?_ofNumber (x : Number) : (ofNumber x).number? = some x := by
  cases x <;> rfl

theorem ofNumber_number? {v : Value} {x : Number} (h : v.number? = some x) : ofNumber x = v := by
  cases v <;> simp_all [number?] <;> subst h <;> rfl

/-- A value counts as true unless it is null, false, a zero, or empty. -/
def truthy : Value → Bool
  | .null => false
  | .bool b => b
  | .int n => n != 0
  | .float (.finite _ m _) => m != 0
  | .float _ => true
  | .text t => !t.isEmpty
  | .list items => !items.isEmpty
  | .object fields => !fields.isEmpty

mutual

/-- How many lists and objects stand inside each other. -/
def depth : Value → Nat
  | .list items => depthItems items + 1
  | .object fields => depthFields fields + 1
  | _ => 0

def depthItems : List Value → Nat
  | [] => 0
  | v :: vs => max (depth v) (depthItems vs)

def depthFields : List (Text × Value) → Nat
  | [] => 0
  | (_, v) :: fs => max (depth v) (depthFields fs)

end

/-- What can be the key of a map: neither a list nor an object. -/
def isKey : Value → Bool
  | .list _ | .object _ => false
  | _ => true

mutual

/-- Equality of what stands inside lists and objects: numbers of any kind by their value, objects in
any order, and what is not a number like itself. -/
def alike : Value → Value → Bool
  | .null, .null => true
  | .float .nan, .float .nan => true
  | .text s, .text t => s == t
  | .list xs, .list ys => alikeItems xs ys
  | .object fs, .object gs => fs.length == gs.length && alikeFields fs gs
  | a, b =>
    match a.number?, b.number? with
    | some x, some y => x.compare? y == some .eq
    | _, _ => false

def alikeItems : List Value → List Value → Bool
  | [], [] => true
  | x :: xs, y :: ys => alike x y && alikeItems xs ys
  | _, _ => false

/-- Every field on the left is there on the right. -/
def alikeFields : List (Text × Value) → List (Text × Value) → Bool
  | [], _ => true
  | (n, x) :: fs, gs =>
    (match field? n gs with
    | some y => alike x y
    | none => false) && alikeFields fs gs

end

/-- Equality of two values on their own. Here what is not a number differs from itself. -/
def same : Value → Value → Bool
  | .float .nan, _ => false
  | a, b => alike a b

theorem same_int (m n : Int) : same (.int m) (.int n) = decide (m = n) := by
  simp only [same, alike, number?, Number.compare?_int_eq]

mutual

def decEq (a b : Value) : Decidable (a = b) :=
  if h : a.ctorIdx = b.ctorIdx then
    match a, b, h with
    | .null, .null, _ => isTrue rfl
    | .bool a, .bool b, _ => decidable_of_iff (a = b) (by simp)
    | .int a, .int b, _ => decidable_of_iff (a = b) (by simp)
    | .float a, .float b, _ => decidable_of_iff (a = b) (by simp)
    | .text a, .text b, _ => decidable_of_iff (a = b) (by simp)
    | .list xs, .list ys, _ =>
      have := decEqItems xs ys
      decidable_of_iff (xs = ys) (by simp)
    | .object fs, .object gs, _ =>
      have := decEqFields fs gs
      decidable_of_iff (fs = gs) (by simp)
  else isFalse fun e => h (e ▸ rfl)

def decEqItems (xs ys : List Value) : Decidable (xs = ys) :=
  match xs, ys with
  | [], [] => isTrue rfl
  | x :: xs, y :: ys =>
    have := decEq x y
    have := decEqItems xs ys
    decidable_of_iff (x = y ∧ xs = ys) (by simp)
  | [], _ :: _ | _ :: _, [] => isFalse nofun

def decEqFields (fs gs : List (Text × Value)) : Decidable (fs = gs) :=
  match fs, gs with
  | [], [] => isTrue rfl
  | (n, x) :: fs, (m, y) :: gs =>
    have := decEq x y
    have := decEqFields fs gs
    decidable_of_iff (n = m ∧ x = y ∧ fs = gs) (by simp [and_assoc])
  | [], _ :: _ | _ :: _, [] => isFalse nofun

end

instance : DecidableEq Value := decEq

end Value
end Settlement.Json
