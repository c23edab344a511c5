import DiceHouse.Draw
import DiceHouse.Round
import DiceHouse.Settings
import DiceHouse.Treasury

/-!
# Resolving a round

The seed draws the winning square. If anyone staked on it, the losing stake pays a fee and the
jackpot, and what is left of it goes, with what earlier rounds handed on, to the winners. If nobody
did, the whole pool is carried on or burned.
-/

namespace DiceHouse.Round

variable {κ ν : Type}

/-- A rate of an amount, rounded down. -/
def cut (amount rate : Nat) : Except Fault Nat :=
  Amount.fit (amount * rate / Settings.wholeBps)

/-- Draws the winning square and splits the pool. -/
def resolve (r : Round κ) (seed : Bytes32) (settings : Settings ν) :
    Except Fault (Round κ × Split) := do
  require (¬r.isResolved) .alreadyResolved
  let square ← Draw.square seed r.id
  let losing ← Amount.sub r.totalStaked (r.staked.get square)
  let pool ← Amount.add losing r.carryIn
  let roll := Roll.ofSquare square
  let resolved : Round κ := { r with
    seed
    winner := some roll.square
    die1 := roll.die1
    die2 := roll.die2
    bonusBps := settings.bonusBps }
  if r.staked.get square = 0 then
    let split : Split :=
      match settings.emptyPool with
      | .carry => { carried := pool }
      | .burn => { burned := pool }
    return ({ resolved with jackpot := 0, winnings := 0, totalVaulted := split.burned }, split)
  else
    let fee ← cut losing settings.feeBps
    let jackpot ← cut losing settings.jackpotBps
    let winnings ← Amount.sub (← Amount.sub pool fee) jackpot
    let jackpotUnit ← Draw.jackpot seed r.id (r.staked.get square)
    return ({ resolved with jackpot, winnings, jackpotUnit, totalVaulted := fee }, { fee })

end DiceHouse.Round
