import DiceHouse.Address

/-!
# Instructions

An instruction calls a program with a list of accounts and some bytes. For each account it says
whether the account signed and whether the program may write to it. An account that is listed twice
counts throughout as it was listed first.
-/

namespace DiceHouse

/-- An account as an instruction lists it. -/
structure Access where
  address : Address
  /-- Whether the account signed. -/
  signed : Bool := false
  /-- Whether the program may write to it. -/
  writable : Bool := false
  deriving DecidableEq, Repr

namespace Access

/-- The accounts with the rights under which each was listed first. -/
def unify (accounts : List Access) : List Access :=
  accounts.map fun a => (accounts.find? fun b => b.address = a.address).getD a

end Access

/-- A call of a program. -/
structure Instruction where
  program : Address
  accounts : List Access
  data : List UInt8
  deriving DecidableEq, Repr

end DiceHouse
