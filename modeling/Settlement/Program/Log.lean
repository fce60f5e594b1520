import Settlement.Text.Basic

/-! Log lines: a level, the part that speaks, and what it says. -/

namespace Settlement

inductive LogLevel where
  | debug
  | info
  | warning
deriving DecidableEq

def LogLevel.name : LogLevel → String
  | debug => "DEBUG"
  | info => "INFO"
  | warning => "WARNING"

inductive LogSource where
  | program
  | dispatch
  | localnet
deriving DecidableEq

def LogSource.name : LogSource → String
  | program => "program"
  | dispatch => "dispatch"
  | localnet => "localnet"

structure LogLine where
  level : LogLevel
  source : LogSource
  message : Text
deriving DecidableEq

def LogLine.text (l : LogLine) : Text :=
  Text.of s!"{l.level.name} {l.source.name}: " ++ l.message

end Settlement
