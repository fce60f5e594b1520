import Settlement.Script.Call
import Settlement.Fault.Basic

/-! What an instruction wants to do: the charges and calls in their order, and how it ends if none
of them fails. A script depends neither on a budget nor on what the calls meet with. -/

namespace Settlement

inductive Step where
  | charge (units : Nat) (label : Text)
  | call (c : Call)
deriving DecidableEq

structure Script (α : Type) where
  steps : List Step
  outcome : Outcome α

namespace Script

variable {α β : Type}

def pure (a : α) : Script α := ⟨[], .ok a⟩

/-- The second script follows only if the first one ends well. -/
def bind (s : Script α) (f : α → Script β) : Script β :=
  match s.outcome with
  | .ok a => ⟨s.steps ++ (f a).steps, (f a).outcome⟩
  | .error e => ⟨s.steps, .error e⟩

instance : Monad Script where
  pure := Script.pure
  bind := Script.bind

def charge (units : Nat) (label : String) : Script Unit := ⟨[.charge units (Text.of label)], .ok ()⟩

def call (c : Call) : Script Unit := ⟨[.call c], .ok ()⟩

/-- Something that costs nothing and may fail. -/
def attempt (r : Outcome α) : Script α := ⟨[], r⟩

def check (r : Except Refusal α) : Script α :=
  match r with
  | .ok a => .pure a
  | .error r => ⟨[], refuse r⟩

def require (condition : Bool) (r : Refusal) : Script Unit :=
  if condition then .pure () else ⟨[], refuse r⟩

def calls (s : Script α) : List Call :=
  s.steps.filterMap fun
    | .call c => some c
    | .charge .. => none

def cost (s : Script α) : Nat :=
  (s.steps.map fun
    | .charge units _ => units
    | .call _ => 0).sum

end Script
end Settlement
