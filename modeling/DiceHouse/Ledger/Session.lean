import DiceHouse.Ledger.Movement

/-!
# Sessions

A session is how far an instruction has come: the ledger as it stands, the movements so far, in
order, and the lines it logged. A session that is refused is thrown away as a whole, so a refused
instruction changes nothing.
-/

namespace DiceHouse

/-- How far an instruction has come. -/
structure Session where
  ledger : Ledger
  log : List String := []
  movements : List Movement := []

namespace Session

/-- The session after a line in the log. -/
def note (s : Session) (line : String) : Session := { s with log := s.log ++ [line] }

/-- The session after another ledger was written. -/
def write (s : Session) (change : Ledger → Ledger) : Session :=
  { s with ledger := change s.ledger }

/-- The session after a record was written. -/
def store (s : Session) (kind : Record.Kind) (a : Address) (body : kind.Body Address) : Session :=
  s.write fun l => l.store kind a body

/-- The session after a movement. -/
def move (s : Session) (m : Movement) : Except Refusal Session := do
  let ledger ← m.apply s.ledger
  return { s with ledger, movements := s.movements ++ [m] }

/-- Opens an account for a record, which has to be the derived one, and puts a first record
there. -/
def create (s : Session) (kind : Record.Kind) (payer account derived : Address)
    (body : kind.Body Address) : Except Refusal Session := do
  demand (account = derived) .invalidSeeds
  let s ← s.move (.createAccount payer account .program kind.length [account])
  return s.store kind account body

/-- Opens the wallet of a house account if nothing is there yet, and refuses an account that is
something else. -/
def ensureWallet (s : Session) (payer account owner : Address) (token : Token) :
    Except Refusal Session := do
  if (s.ledger account).contents.isEmpty then
    s.move (.openWallet payer account owner token)
  else
    s.ledger.requireWallet account owner token
    return s

/-- Transfers an amount that its owner signed for. -/
def transfer (s : Session) (source target authority : Address) (amount : Nat) :
    Except Refusal Session :=
  s.move (.transfer source target authority amount [])

/-- Transfers an amount out of a wallet of the house. -/
def payOut (s : Session) (source target house : Address) (amount : Nat) :
    Except Refusal Session :=
  s.move (.transfer source target house amount [house])

end Session

end DiceHouse
