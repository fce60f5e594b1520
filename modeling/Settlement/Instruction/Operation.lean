import Settlement.Bytes.Word

/-! The three operations, and the eight bytes by which instruction data names one. -/

namespace Settlement

inductive Operation where
  | splitTransfer
  | directBurn
  | organizationBurn
deriving DecidableEq, Repr

namespace Operation

def all : List Operation := [splitTransfer, directBurn, organizationBurn]

def name : Operation → String
  | splitTransfer => "execute_split_transfer"
  | directBurn => "burn_tokens"
  | organizationBurn => "burn_from_company_pda"

def discriminator : Operation → Bytes
  | splitTransfer => [51, 254, 61, 214, 234, 138, 101, 214]
  | directBurn => [76, 15, 51, 254, 229, 215, 121, 66]
  | organizationBurn => [43, 207, 204, 77, 74, 93, 165, 34]

def ofDiscriminator? (bs : Bytes) : Option Operation :=
  all.find? fun o => o.discriminator == bs

theorem discriminator_of_ofDiscriminator? {bs : Bytes} {o : Operation}
    (h : ofDiscriminator? bs = some o) : o.discriminator = bs := by
  have := List.find?_some h
  simpa using this

/-- The accounts that an operation names. Those after them are forwarded. -/
def minAccounts : Operation → Nat
  | splitTransfer => 9
  | directBurn => 6
  | organizationBurn => 7

end Operation
end Settlement
