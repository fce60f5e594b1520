import Settlement.Config.Basic

/-! What instructions are judged by: the addresses of the programs, the split policy and the gate of
direct burns. -/

namespace Settlement

structure Programs where
  settlement : Bytes
  token : Bytes
  compressedToken : Bytes
  system : Bytes
deriving DecidableEq

namespace Programs

def ofConfig (c : Config) : Outcome Programs := do
  let settlement ← c.programId.hex
  let token ← c.tokenProgramId.hex
  let compressedToken ← c.compressedTokenProgramId.hex
  let system ← c.systemProgramId.hex
  return ⟨settlement, token, compressedToken, system⟩

end Programs

structure Rules where
  programs : Programs
  policy : Policy
  gatesDirectBurn : Bool

def Rules.ofConfig (c : Config) : Outcome Rules := do
  let policy ← Policy.ofRatios c.ratios
  let programs ← Programs.ofConfig c
  return ⟨programs, policy, c.pauseGatesDirectBurn.truthy⟩

end Settlement
