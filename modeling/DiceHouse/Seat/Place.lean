import DiceHouse.Seat
import DiceHouse.Token

/-!
# Placing a wager

`Seat.place` adds stake to a spot if the table allows it in the phase it is in, and says how much
more bankroll the house has to reserve. A bet on the line opens on the come-out, a come box and
line odds with a point up; a number reached from a come box is never bet on directly; odds stand
behind a riding parent and stay within three times its stake; a bonus bet opens on the come-out,
one wager at a time, and starts its tracker afresh.
-/

namespace DiceHouse

/-- The most stake of one request. -/
def maxBet : Nat := 100 * Token.crap.one

/-- How many times its parent an odds bet may be. -/
def maxOddsMultiple : Nat := 3

namespace Spot

/-- Whether stake can be put on the spot in this phase. -/
def opensIn (spot : Spot) (phase : Phase) : Bool :=
  match spot with
  | passLine | dontPass | fire | small | tall | all | ride | corner => phase.isComeOut
  | comeBox | dontComeBox | passOdds | dontPassOdds => !phase.isComeOut
  | come _ | dontCome _ => false
  | _ => true

end Spot

namespace Trackers

/-- The trackers with that of one spot set back. -/
def restart (t : Trackers) (spot : Spot) : Trackers :=
  match spot with
  | .fire => { t with firePoints := 0 }
  | .small => { t with smallHits := 0 }
  | .tall => { t with tallHits := 0 }
  | .all => { t with allHits := 0 }
  | .ride => { t with rideWins := 0 }
  | _ => t

end Trackers

namespace Seat

variable {κ : Type}

/-- Whether so much more fits behind the parent of an odds bet. -/
def checkOdds (parent odds : Wager) (amount : Nat) : Except Fault Unit := do
  require parent.rides .invalidBet
  let total ← Amount.add odds.atRisk amount
  let most ← Amount.fit (parent.amount * maxOddsMultiple)
  require (total ≤ most) .invalidAmount

/-- What the seat itself demands before stake is added to a spot. -/
def allows (s : Seat κ) (spot : Spot) (amount : Nat) : Except Fault Unit := do
  if let some parent := spot.parent? then
    checkOdds (← s.wager parent) (← s.wager spot) amount
  require (¬(spot.isBonus ∧ s.rides spot)) .invalidBet
  require (spot = .ride → s.rides .passLine) .invalidBet

/-- Adds stake to a spot; the number is the bankroll to reserve on top of what is reserved. -/
def place (s : Seat κ) (spot : Spot) (amount : Nat) (phase : Phase) :
    Except Fault (Seat κ × Nat) := do
  require (0 < amount ∧ amount ≤ maxBet) .invalidAmount
  require (spot.opensIn phase) .invalidBet
  s.allows spot amount
  let before ← s.wager spot
  let after ← before.add amount
  let placed ← s.setWager spot after
  let totalWagered ← Amount.add s.totalWagered amount
  let reservedBefore ← spot.reserve before.atRisk
  let reservedAfter ← spot.reserve after.amount
  let reservation ← Amount.sub reservedAfter reservedBefore
  return ({ placed with trackers := s.trackers.restart spot, totalWagered }, reservation)

end Seat

end DiceHouse
