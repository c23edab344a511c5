import DiceHouse.Seat

/-!
# Settling a seat

`Seat.settle` judges every riding wager of a seat against one roll and adds up where the money
went. The trackers first count the roll. Then the spots are gone through in an order; each verdict
is passed on the wager that was there before the roll, and wagers that leave a come box arrive only
after every spot was judged. Last, trackers of bonus bets that no longer ride are set back and the
totals booked. The order is an argument of `settleAlong`.

`Seat.forfeit` gives every riding wager to the house instead.
-/

namespace DiceHouse

/-- Where the money of one settlement went. -/
structure Tally where
  /-- Stake returned and profit, for the player to collect. -/
  credited : Nat := 0
  /-- Profit that the house pays. -/
  profit : Nat := 0
  /-- Stake that the house keeps. -/
  lost : Nat := 0
  /-- Stake returned undecided. -/
  pushed : Nat := 0
  /-- Bankroll that is no longer reserved. -/
  released : Nat := 0
  /-- How many wagers ended. -/
  resolved : Nat := 0
  deriving DecidableEq, Repr

namespace Tally

variable (t : Tally) (spot : Spot) (amount : Nat)

/-- Adds a wager that won. -/
def win (odds : Odds) : Except Fault Tally := do
  let profit ← odds.profit amount
  let back ← Amount.add amount profit
  let credited ← Amount.add t.credited back
  let profits ← Amount.add t.profit profit
  let released ← Amount.add t.released (← spot.reserve amount)
  return { t with credited, profit := profits, released, resolved := t.resolved + 1 }

/-- Adds a wager that lost. -/
def lose : Except Fault Tally := do
  let lost ← Amount.add t.lost amount
  let released ← Amount.add t.released (← spot.reserve amount)
  return { t with lost, released, resolved := t.resolved + 1 }

/-- Adds a wager that was returned. -/
def push : Except Fault Tally := do
  let credited ← Amount.add t.credited amount
  let pushed ← Amount.add t.pushed amount
  let released ← Amount.add t.released (← spot.reserve amount)
  return { t with credited, pushed, released, resolved := t.resolved + 1 }

end Tally

namespace Seat

variable {κ : Type}

/-! ## Trackers -/

/-- The place of the point that a call made, as a mask. -/
def pointBit (call : Call) : Except Fault Nat :=
  match call with
  | .pointMade p =>
    match Dice.pointIndex? p with
    | some i => .ok (1 <<< i.val)
    | none => .error .invalidPoint
  | _ => .ok 0

/-- The place of a sum as a mask; the seven has none. -/
def sumBit (sum : Nat) : Except Fault Nat :=
  if sum = 7 then .ok 0
  else
    match Dice.sumIndex? sum with
    | some i => .ok (1 <<< i.val)
    | none => .error .invalidPoint

/-- Whether a call is a win of the pass line. -/
def isLineWin : Call → Bool
  | .natural | .pointMade _ => true
  | _ => false

/-- Counts a roll for the bonus bets that ride. -/
def track (s : Seat κ) (call : Call) (sum : Nat) : Except Fault (Seat κ) := do
  let t := s.trackers
  let point ← if s.rides .fire then pointBit call else pure 0
  let hit ← sumBit sum
  let mark (spot : Spot) (mask : Nat) : Nat := if s.rides spot then mask ||| hit else mask
  return { s with
    trackers :=
      { firePoints := t.firePoints ||| point
        rideWins :=
          if s.rides .ride ∧ isLineWin call then min (t.rideWins + 1) 255 else t.rideWins
        smallHits := mark .small t.smallHits
        tallHits := mark .tall t.tallHits
        allHits := mark .all t.allHits } }

/-- Sets back the trackers of bonus bets that do not ride. -/
def restTrackers (s : Seat κ) : Seat κ :=
  let keep (spot : Spot) (n : Nat) : Nat := if s.rides spot then n else 0
  { s with
    trackers :=
      { firePoints := keep .fire s.trackers.firePoints
        rideWins := keep .ride s.trackers.rideWins
        smallHits := keep .small s.trackers.smallHits
        tallHits := keep .tall s.trackers.tallHits
        allHits := keep .all s.trackers.allHits } }

/-- Books a settlement in the seat's totals. -/
def book (s : Seat κ) (t : Tally) : Except Fault (Seat κ) := do
  let pending ← Amount.add s.pending t.credited
  let totalWon ← Amount.add s.totalWon t.profit
  let totalLost ← Amount.add s.totalLost t.lost
  let totalPushed ← Amount.add s.totalPushed t.pushed
  return { s with pending, totalWon, totalLost, totalPushed }

/-! ## Settlement -/

/-- How far a settlement has come. -/
structure Progress (κ : Type) where
  seat : Seat κ
  tally : Tally
  /-- The wagers that left their box, with the spot they go to. -/
  moves : List (Spot × Nat)

/-- Passes the verdict of a roll on one spot of the seat as it was before. -/
def Progress.judge (before : Seat κ) (view : RollView) (p : Progress κ) (spot : Spot) :
    Except Fault (Progress κ) := do
  let w ← before.wager spot
  if w.rides then
    match ← spot.verdict view with
    | .win odds =>
      let tally ← p.tally.win spot w.amount odds
      return { p with seat := ← p.seat.setWager spot (.cleared .won), tally }
    | .lose =>
      let tally ← p.tally.lose spot w.amount
      return { p with seat := ← p.seat.setWager spot (.cleared .lost), tally }
    | .push =>
      let tally ← p.tally.push spot w.amount
      return { p with seat := ← p.seat.setWager spot (.cleared .pushed), tally }
    | .carry =>
      return { p with seat := ← p.seat.setWager spot (← p.seat.wager spot).carry }
    | .travel n =>
      let seat ← p.seat.setWager spot (.cleared .none)
      return { p with seat, moves := p.moves ++ [(spot.landing n, w.amount)] }
  else return p

/-- Puts a wager that left its box on its number. -/
def land (s : Seat κ) (move : Spot × Nat) : Except Fault (Seat κ) := do
  let w ← (← s.wager move.1).add move.2
  s.setWager move.1 w.carry

/-- Settles a seat, going through the spots in the given order. -/
def settleAlong (order : List Spot) (s : Seat κ) (phase : Phase) (roll : Roll)
    (fieldTriple : Bool) : Except Fault (Seat κ × Tally) := do
  let call := (phase.step roll.sum).2
  let tracked ← s.track call roll.sum
  let view : RollView := { phase, roll, call, fieldTriple, trackers := tracked.trackers }
  let p ← order.foldlM (Progress.judge s view) ⟨tracked, {}, []⟩
  let landed ← p.moves.foldlM land p.seat
  return (← landed.restTrackers.book p.tally, p.tally)

/-- Settles a seat against one roll made while the line was in a phase. -/
def settle (s : Seat κ) (phase : Phase) (roll : Roll) (fieldTriple : Bool) :
    Except Fault (Seat κ × Tally) :=
  settleAlong Spot.order s phase roll fieldTriple

/-! ## Forfeiture -/

/-- Gives the wager on one spot to the house. -/
def surrender (before : Seat κ) (p : Seat κ × Tally) (spot : Spot) :
    Except Fault (Seat κ × Tally) := do
  let w ← before.wager spot
  if w.rides then
    let tally ← p.2.lose spot w.amount
    return (← p.1.setWager spot (.cleared .lost), tally)
  else return p

/-- Gives every wager of the seat to the house. -/
def forfeit (s : Seat κ) : Except Fault (Seat κ × Tally) := do
  let p ← Spot.order.foldlM (surrender s) (s, {})
  return (← p.1.restTrackers.book p.2, p.2)

end Seat

end DiceHouse
