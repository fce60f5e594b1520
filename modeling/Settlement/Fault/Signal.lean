import Settlement.Fault.Code
import Settlement.Json.Display

/-! What the outside sees of an instruction that was aborted: its class, its code and its message.
-/

namespace Settlement

open Json

/-- A code given as a value. A number of any kind counts by its value. -/
def ErrorCode.ofValue? (v : Value) : Option ErrorCode :=
  all.find? fun c => v.same (.int c.number)

def HostKind.ofValue? : Value → Option HostKind
  | .text word => ofWord? word
  | _ => none

/-- A detail is whatever an outside program has answered with, and is passed on as it is. -/
inductive Signal where
  | host (kind : HostKind) (message : Value)
  | domain (code : ErrorCode) (message : Value)
  | external (program : Bytes) (detail : Value)
  | other (code message : Value)
deriving DecidableEq

namespace Signal

/-- A structural failure. Without a message of its own it shows its word. -/
def ofHost (kind : HostKind) (message : Value) : Signal :=
  .host kind (if message.truthy then message else .text (Text.of kind.word))

/-- A numbered outcome. Without a message of its own it shows its name. -/
def ofDomain (code : ErrorCode) (message : Value) : Signal :=
  .domain code (if message.truthy then message else .text (Text.of code.name))

def shortKey (key : Bytes) : Text := Text.ofChars ((Hex.encode key).take 16)

def message : Signal → Value
  | host _ m => m
  | domain _ m => m
  | external program detail =>
    .text (Text.of "external call to " ++ shortKey program ++ Text.of " failed: " ++ detail.display)
  | other _ m => m

def status : Signal → Text
  | host kind _ => Text.of kind.word
  | domain code _ => Text.ofInt code.number
  | external .. => Text.of "external_call_failed"
  | other code _ => code.display

def label : Signal → Text
  | host kind _ => Text.of s!"HostError({kind.word})"
  | domain code _ => Text.of s!"ValidationError({code.name}={code.number})"
  | s@(external ..) => Text.of "ExternalCallError(" ++ s.message.nested ++ Text.of ")"
  | s@(other ..) => Text.of "ProgramError(" ++ s.message.nested ++ Text.of ")"

end Signal
end Settlement
