import DiceHouse.Instruction
import DiceHouse.Request

/-!
# Building instructions

For every request this builds the instruction that the house expects: the accounts in order, with
the rights that the request needs, and the request in bytes.
-/

namespace DiceHouse.Client

/-- An account that only is read. -/
def reads (a : Address) : Access := { address := a }

/-- An account that is written. -/
def writes (a : Address) : Access := { address := a, writable := true }

/-- The account that signs and pays. -/
def signs (a : Address) : Access := { address := a, signed := true, writable := true }

/-- The instruction that makes a request of the house. -/
def ask (request : Request) (accounts : List Access) : Instruction where
  program := .program
  accounts := accounts
  data := request.encode

def openHouse (signer : Address) : Instruction :=
  ask .openHouse
    [signs signer, writes .board, writes .settings, writes .treasury, writes (.round 1),
      writes .table, reads .system]

def configure (signer : Address) (settings : Settings Address) : Instruction :=
  ask (.configure (settings.mapNames Address.toKey)) [signs signer, writes .settings]

def stake (signer : Address) (round square amount prediction : Nat) : Instruction :=
  ask (.stake amount square prediction)
    [signs signer, reads .board, writes (.round round), writes (.ticket signer round),
      reads .treasury, writes (.wallet signer .rng), writes (.wallet .treasury .rng),
      reads (.mint .rng), reads .system, reads .tokenProgram, reads .walletProgram]

/-- There is none for the last round that has a number, for no round can follow it. -/
def resolve (signer : Address) (round : Nat) (feeCollector : Address) : Option Instruction :=
  if round + 1 < Amount.limit then
    some <| ask .resolve
      [signs signer, writes .board, reads .settings, writes (.round round),
        writes (.round (round + 1)), writes .treasury, writes (.wallet .treasury .rng),
        writes (.wallet feeCollector .rng), writes (.mint .rng), reads .slotHashes,
        reads .system, reads .tokenProgram]
  else none

def claim (signer : Address) (round : Nat) : Instruction :=
  ask .claim
    [signs signer, writes (.round round), writes (.ticket signer round), writes .treasury,
      writes (.wallet .treasury .rng), writes (.wallet signer .rng), reads .tokenProgram]

def bet (signer : Address) (kind : Spot.Kind) (number amount : Nat) : Instruction :=
  ask (.bet amount kind.code number)
    [signs signer, reads .board, writes .table, writes (.seat signer), reads .vault,
      writes (.wallet signer .crap), writes (.wallet .vault .crap), reads (.mint .crap),
      reads .system, reads .tokenProgram, reads .walletProgram]

/-- Anyone may have anyone's seat settled. -/
def settle (signer owner : Address) (round : Nat) : Instruction :=
  ask .settle
    [signs signer, reads .settings, writes .table, writes (.seat owner), reads (.round round)]

def advance (signer : Address) (round : Nat) : Instruction :=
  ask .advance [signs signer, writes .table, reads (.round round)]

def collect (signer : Address) : Instruction :=
  ask .collect
    [signs signer, writes (.seat signer), reads .vault, writes (.wallet .vault .crap),
      writes (.wallet signer .crap), reads (.mint .crap), reads .tokenProgram]

def fund (signer : Address) (amount : Nat) : Instruction :=
  ask (.fund amount)
    [signs signer, writes .table, reads .vault, writes (.wallet signer .crap),
      writes (.wallet .vault .crap), reads (.mint .crap), reads .system, reads .tokenProgram,
      reads .walletProgram]

/-- Anyone may have anyone's seat cleared. -/
def forfeit (signer owner : Address) : Instruction :=
  ask .forfeit [signs signer, writes .table, writes (.seat owner)]

end DiceHouse.Client
