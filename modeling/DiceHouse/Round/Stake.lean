import DiceHouse.Amount
import DiceHouse.Round

/-!
# Staking on a square

A ticket stakes on each square at most once. Its stake lies in the square's stake from `before` on,
so the tickets on a square cut its stake into intervals. Stake whose owner predicts the square's
sum is counted once more in `predicted`.

A stake is written into the round and the ticket where they are, and what is written there stays,
whatever comes after. `Round.stake` is for those who throw both away when a stake is refused.
-/

namespace DiceHouse.Round

variable {κ : Type}

/-- Adds a stake on a square to the round and the ticket at hand. -/
def stakeInPlace (square amount prediction : Nat) :
    ExceptT Fault (StateM (Round κ × Ticket κ)) Unit := do
  let (r, ticket) ← get
  require (¬r.isResolved) .alreadyResolved
  let s ← Square.ofNumber square
  require (0 < amount) .invalidAmount
  require (ticket.staked.get s = 0) .alreadyStaked
  let prediction ← ticket.fixPrediction prediction
  let before := r.staked.get s
  let staked ← Amount.add before amount
  let totalStaked ← Amount.add r.totalStaked amount
  let predicted ←
    Amount.add (r.predicted.get s) (if prediction = (Roll.ofSquare s).sum then amount else 0)
  let total ← Amount.add ticket.total amount
  modify fun (r, ticket) =>
    ({ r with
      staked := r.staked.set s staked s.isLt
      predicted := r.predicted.set s predicted s.isLt
      tickets := r.tickets.set s (Amount.addSaturating (r.tickets.get s) 1) s.isLt
      totalStaked }, ticket)
  modify fun (r, ticket) =>
    (r, { ticket with
      staked := ticket.staked.set s amount s.isLt
      before := ticket.before.set s before s.isLt
      total
      prediction })

/-- What a request to stake is told, and the round and the ticket that it leaves. -/
def stakeOutcome (r : Round κ) (ticket : Ticket κ) (square amount prediction : Nat) :
    Except Fault Unit × Round κ × Ticket κ :=
  (stakeInPlace square amount prediction).run.run (r, ticket)

/-- The round and the ticket after a stake that is granted. -/
def stake (r : Round κ) (ticket : Ticket κ) (square amount prediction : Nat) :
    Except Fault (Round κ × Ticket κ) :=
  let outcome := r.stakeOutcome ticket square amount prediction
  (fun _ => outcome.2) <$> outcome.1

end DiceHouse.Round
