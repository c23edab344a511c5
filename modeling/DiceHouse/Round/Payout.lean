import DiceHouse.Round
import DiceHouse.Settings

/-!
# Paying out a round

A ticket on the winning square gets its stake back and a share of the winnings in proportion to its
weight: its stake, or the bonus multiple of it if the ticket predicted the sum. The ticket whose
interval of the square's stake holds the jackpot's unit gets the jackpot. All quotients are rounded
down.
-/

namespace DiceHouse

/-- What a ticket is owed. -/
structure Payout where
  stake : Nat := 0
  share : Nat := 0
  jackpot : Nat := 0
  deriving DecidableEq, Repr

namespace Payout

/-- The whole of it. -/
def total (p : Payout) : Except Fault Nat := do
  Amount.add (← Amount.add p.stake p.share) p.jackpot

def wonJackpot (p : Payout) : Bool := 0 < p.jackpot

end Payout

namespace Round

variable {κ ν : Type}

/-- The weight of all stake on a square. -/
def totalWeight (r : Round κ) (square : Square) : Nat :=
  r.staked.get square
    + r.predicted.get square * (r.bonusBps - Settings.wholeBps) / Settings.wholeBps

/-- The weight of so much stake of one ticket. -/
def weight (r : Round κ) (isRight : Bool) (stake : Nat) : Nat :=
  if isRight then stake * r.bonusBps / Settings.wholeBps else stake

/-- What a ticket is owed. -/
def payout (r : Round κ) (ticket : Ticket ν) : Except Fault Payout := do
  let square ← r.winningSquare
  let stake := ticket.staked.get square
  if stake = 0 ∨ r.staked.get square = 0 then return {}
  else
    let isRight := ticket.prediction = (Roll.ofSquare square).sum
    let product ← Amount.product r.winnings (r.weight isRight stake)
    let share ← Amount.fit (product / r.totalWeight square)
    let first := ticket.before.get square
    let past ← Amount.add first stake
    let jackpot := if first ≤ r.jackpotUnit ∧ r.jackpotUnit < past then r.jackpot else 0
    return { stake, share, jackpot }

end Round

end DiceHouse
