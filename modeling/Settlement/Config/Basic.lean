import Settlement.Split.Policy
import Settlement.Instruction.Operation
import Settlement.Account.View
import Settlement.Json.Reader
import Settlement.Json.Printer

/-! Configuration documents: the program addresses, the split ratios, the gates, the budgets, and
where metrics are served. Sections and fields may be missing, and only the ratios are checked. -/

namespace Settlement

open Json

structure Config where
  programId : Value
  tokenProgramId : Value
  compressedTokenProgramId : Value
  systemProgramId : Value
  ratios : List (Text × Ratio)
  pauseGatesDirectBurn : Value
  splitTransferBudget : Value
  burnTokensBudget : Value
  burnFromCompanyBudget : Value
  metricsHost : Value
  metricsPort : Value

namespace Config

def programAddress : Bytes :=
  [0x08, 0x51, 0x8d, 0xf5, 0xb1, 0x3e, 0x19, 0xfb, 0x43, 0x7c, 0x97, 0xb8, 0x08, 0x08, 0x4b, 0xe7,
   0x50, 0x49, 0xfe, 0xb6, 0xf0, 0xe1, 0xd8, 0xd2, 0xf3, 0x62, 0xa6, 0xe2, 0xa0, 0x18, 0x59, 0xef]

def tokenProgramAddress : Bytes :=
  [0x06, 0xdd, 0xf6, 0xe1, 0xee, 0x75, 0x8f, 0xde, 0x18, 0x42, 0x5d, 0xbc, 0xe4, 0x6c, 0xcd, 0xda,
   0xb6, 0x1a, 0xfc, 0x4d, 0x83, 0xb9, 0x0d, 0x27, 0xfe, 0xbd, 0xf9, 0x28, 0xd8, 0xa1, 0x8b, 0xfc]

def compressedTokenProgramAddress : Bytes :=
  [0x09, 0x15, 0xa3, 0x57, 0x23, 0x79, 0x4e, 0x8f, 0xb6, 0x5d, 0x07, 0x5b, 0x6b, 0x72, 0x69, 0x9c,
   0x38, 0xdd, 0x02, 0xe5, 0x94, 0x8b, 0x75, 0xb0, 0xe5, 0xa0, 0x41, 0x8e, 0x80, 0x97, 0x5b, 0x44]

def standardTypes : List String := ["mixed_payment", "z_direct"]

def standardRatios : List (Text × Ratio) :=
  standardTypes.map fun name => (Text.of name, ⟨.int 100, .int 120⟩)

/-- The configuration of an empty document. -/
def standard : Config where
  programId := .ofHex programAddress
  tokenProgramId := .ofHex tokenProgramAddress
  compressedTokenProgramId := .ofHex compressedTokenProgramAddress
  systemProgramId := .ofHex systemAddress
  ratios := standardRatios
  pauseGatesDirectBurn := .bool false
  splitTransferBudget := .int 30000
  burnTokensBudget := .int 10000
  burnFromCompanyBudget := .int 10000
  metricsHost := .ofString "127.0.0.1"
  metricsPort := .int 9090

def programNames : List String :=
  ["program_id", "token_program_id", "compressed_token_program_id", "system_program_id"]

def budgetNames : List String := ["split_transfer", "burn_tokens", "burn_from_company"]

/-- The fields of a section, which is empty if it is missing. -/
def sectionFields (name : String) (names : List String) (document : Fields) : Outcome Fields :=
  match field? (Text.of name) document with
  | none => .ok []
  | some (.object fields) => do
    Fields.known names fields
    return fields
  | some _ => .error .wrongKind

def valueOr (name : String) (default : Value) (fields : Fields) : Value :=
  (field? (Text.of name) fields).getD default

/-- The ratios of a section. Null stands for the standard ones. -/
def ratiosOf (v : Value) : Outcome (List (Text × Ratio)) :=
  match v with
  | .null => .ok standardRatios
  | .object ratios => ratios.mapM fun (name, v) => do return (name, ← Ratio.ofValue name v)
  | _ => .error .noMember

def ofValue (document : Value) : Outcome Config := do
  match document with
  | .object document =>
    let program ← sectionFields "program" programNames document
    let split ← sectionFields "split" ["ratios"] document
    let ratios ← ratiosOf (valueOr "ratios" .null split)
    let gates ← sectionFields "gates" ["pause_gates_direct_burn"] document
    let budgets ← sectionFields "budgets" budgetNames document
    let monitoring ← sectionFields "monitoring" ["host", "port"] document
    return {
      programId := valueOr "program_id" standard.programId program
      tokenProgramId := valueOr "token_program_id" standard.tokenProgramId program
      compressedTokenProgramId :=
        valueOr "compressed_token_program_id" standard.compressedTokenProgramId program
      systemProgramId := valueOr "system_program_id" standard.systemProgramId program
      ratios := ratios
      pauseGatesDirectBurn := valueOr "pause_gates_direct_burn" standard.pauseGatesDirectBurn gates
      splitTransferBudget := valueOr "split_transfer" standard.splitTransferBudget budgets
      burnTokensBudget := valueOr "burn_tokens" standard.burnTokensBudget budgets
      burnFromCompanyBudget := valueOr "burn_from_company" standard.burnFromCompanyBudget budgets
      metricsHost := valueOr "host" standard.metricsHost monitoring
      metricsPort := valueOr "port" standard.metricsPort monitoring }
  | _ => .error .noMember

def toValue (c : Config) : Value :=
  let object (names : List String) (values : List Value) : Value :=
    .object ((names.map Text.of).zip values)
  object ["program", "split", "gates", "budgets", "monitoring"]
    [object programNames
      [c.programId, c.tokenProgramId, c.compressedTokenProgramId, c.systemProgramId],
     object ["ratios"] [.object (c.ratios.map fun (name, r) => (name, r.toValue))],
     object ["pause_gates_direct_burn"] [c.pauseGatesDirectBurn],
     object budgetNames [c.splitTransferBudget, c.burnTokensBudget, c.burnFromCompanyBudget],
     object ["host", "port"] [c.metricsHost, c.metricsPort]]

/-- The configuration of a document, for which a caller has room for so many levels. -/
def read (room : Nat) (document : List Char) : Outcome Config :=
  match readWithin room document with
  | .ok v => ofValue v
  | .error .malformed => .error .malformedDocument
  | .error .tooManyDigits => .error .badNumeral
  | .error .tooDeep => .error .tooDeep

def write (c : Config) : List Char := indented c.toValue

/-- The document of a configuration, if the caller has room to write its fields. -/
def save (writable : Value → Bool) (c : Config) : Outcome (List Char) :=
  if writable c.toValue then .ok c.write else .error .tooDeep

def budget (c : Config) : Operation → Value
  | .splitTransfer => c.splitTransferBudget
  | .directBurn => c.burnTokensBudget
  | .organizationBurn => c.burnFromCompanyBudget

end Config
end Settlement
