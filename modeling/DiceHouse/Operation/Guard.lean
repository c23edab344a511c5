import DiceHouse.Instruction
import DiceHouse.Ledger

/-!
# Checks of accounts

What an operation demands of the accounts it was given, one check at a time. An operation goes
through its checks in a fixed order, and the first that fails decides how it is refused.
-/

namespace DiceHouse.Access

variable (a : Access)

def requireSigned : Except Refusal Unit := demand a.signed .missingSignature

/-- An account that may not be written is refused like one that did not sign. -/
def requireWritable : Except Refusal Unit := demand a.writable .missingSignature

/-- Demands the derived account that belongs here. -/
def requireDerived (name : Address) : Except Refusal Unit :=
  demand (a.address = name) .invalidSeeds

/-- Demands an account that is known by its address. -/
def requireNamed (name : Address) : Except Refusal Unit :=
  demand (a.address = name) .invalidContents

/-- Demands a program. -/
def requireProgram (l : Ledger) (name : Address) : Except Refusal Unit := do
  a.requireNamed name
  demand (l a.address).executable .invalidContents

/-- Demands an account that holds nothing yet. -/
def requireEmpty (l : Ledger) : Except Refusal Unit :=
  demand (l a.address).contents.isEmpty .alreadyOpened

/-- Demands that a record can be put here. -/
def requireFresh (l : Ledger) (name : Address) : Except Refusal Unit := do
  a.requireEmpty l
  a.requireWritable
  a.requireDerived name

/-- Demands a derived account that may be written. -/
def requireOwn (name : Address) : Except Refusal Unit := do
  a.requireWritable
  a.requireDerived name

/-- Demands the opened wallet of an owner, to be written. -/
def requireWallet (l : Ledger) (owner : Address) (token : Token) : Except Refusal Unit := do
  a.requireWritable
  l.requireWallet a.address owner token

end DiceHouse.Access
