import DiceHouse.Phase
import DiceHouse.Spot

/-!
# Verdicts

What one roll does to a wager on a spot. A verdict looks at the phase before the roll, at the roll
and its call, and for the bonus bets at the trackers, which already count this roll.
-/

namespace DiceHouse

/-- What one roll does to one wager. -/
inductive Verdict where
  | win (odds : Odds)
  | lose
  | push
  | carry
  /-- The wager leaves its box for its number. -/
  | travel (number : Nat)
  deriving DecidableEq, Repr

/-- What the bonus bets have seen since they were placed; sets are bit masks. -/
structure Trackers where
  /-- The points made, by their place among the point numbers. -/
  firePoints : Nat := 0
  /-- The wins of the pass line. -/
  rideWins : Nat := 0
  /-- The sums rolled, bit `s - 2` for sum `s`. -/
  smallHits : Nat := 0
  tallHits : Nat := 0
  allHits : Nat := 0
  deriving DecidableEq, Repr

namespace Trackers

/-- The sums 2 to 6. -/
def smallMask : Nat := 0b00000011111

/-- The sums 8 to 12. -/
def tallMask : Nat := 0b11111000000

/-- Every sum but 7. -/
def allMask : Nat := smallMask ||| tallMask

/-- How many different points were made. -/
def pointsMade (t : Trackers) : Nat := (List.range 8).countP t.firePoints.testBit

end Trackers

/-- All that a verdict may look at. -/
structure RollView where
  /-- The phase before the roll. -/
  phase : Phase
  roll : Roll
  call : Call
  /-- Whether a twelve in the field pays three for one. -/
  fieldTriple : Bool
  trackers : Trackers

namespace RollView

def sum (v : RollView) : Nat := v.roll.sum

end RollView

namespace Spot

/-- A bet that all sums of a mask come before a seven. -/
def hitsVerdict (sum hits mask : Nat) (odds : Odds) : Verdict :=
  if sum = 7 then .lose
  else if hits &&& mask = mask then .win odds
  else .carry

/-- The verdict of a roll on a wager that rides on the spot. -/
def verdict (spot : Spot) (v : RollView) : Except Fault Verdict :=
  let sum := v.sum
  match spot with
  | passLine =>
    match v.phase with
    | .comeOut =>
      if Dice.isNatural sum then .ok (.win .even)
      else if Dice.isCraps sum then .ok .lose
      else .ok .carry
    | .point p =>
      if sum = p then .ok (.win .even) else if sum = 7 then .ok .lose else .ok .carry
  | dontPass =>
    match v.phase with
    | .comeOut =>
      if Dice.isNatural sum then .ok .lose
      else if sum = 12 then .ok .push
      else if Dice.isCraps sum then .ok (.win .even)
      else .ok .carry
    | .point p =>
      if sum = 7 then .ok (.win .even) else if sum = p then .ok .lose else .ok .carry
  | passOdds =>
    match v.phase with
    | .comeOut => .ok .push
    | .point p =>
      if sum = p then .win <$> Odds.taken p else if sum = 7 then .ok .lose else .ok .carry
  | dontPassOdds =>
    match v.phase with
    | .comeOut => .ok .push
    | .point p =>
      if sum = 7 then .win <$> Odds.laid p else if sum = p then .ok .lose else .ok .carry
  | comeBox =>
    if Dice.isNatural sum then .ok (.win .even)
    else if Dice.isCraps sum then .ok .lose
    else .ok (.travel sum)
  | dontComeBox =>
    if Dice.isNatural sum then .ok .lose
    else if sum = 12 then .ok .push
    else if Dice.isCraps sum then .ok (.win .even)
    else .ok (.travel sum)
  | come n =>
    if sum = n then .ok (.win .even) else if sum = 7 then .ok .lose else .ok .carry
  | comeOdds n =>
    if sum = n then
      if v.phase.isComeOut then .ok .push else .win <$> Odds.taken n
    else if sum = 7 then
      if v.phase.isComeOut then .ok .push else .ok .lose
    else .ok .carry
  | dontCome n =>
    if sum = 7 then .ok (.win .even) else if sum = n then .ok .lose else .ok .carry
  | dontComeOdds n =>
    if sum = 7 then .win <$> Odds.laid n else if sum = n then .ok .lose else .ok .carry
  | place n =>
    if v.phase.isComeOut then .ok .carry
    else if sum = n then .win <$> Odds.place n
    else if sum = 7 then .ok .lose
    else .ok .carry
  | hardway n =>
    if sum = n ∧ v.roll.isHard then .win <$> Odds.hardway n
    else if sum = n ∨ sum = 7 then .ok .lose
    else .ok .carry
  | field =>
    if Dice.isFieldWinner sum then .ok (.win (Odds.field sum v.fieldTriple)) else .ok .lose
  | anySeven => if sum = 7 then .ok (.win Odds.anySeven) else .ok .lose
  | anyCraps => if Dice.isCraps sum then .ok (.win Odds.anyCraps) else .ok .lose
  | yo => if sum = 11 then .ok (.win Odds.yo) else .ok .lose
  | aces => if sum = 2 then .ok (.win Odds.aces) else .ok .lose
  | twelve => if sum = 12 then .ok (.win Odds.twelve) else .ok .lose
  | yes n =>
    if sum = n then .win <$> Odds.yes n else if sum = 7 then .ok .lose else .ok .carry
  | no n =>
    if sum = 7 then .win <$> Odds.no n else if sum = n then .ok .lose else .ok .carry
  | next n => if sum = n then .win <$> Odds.next n else .ok .lose
  | fire =>
    match Odds.fire v.trackers.pointsMade with
    | some odds =>
      if 6 ≤ v.trackers.pointsMade ∨ v.call = .sevenOut then .ok (.win odds) else .ok .carry
    | none => if v.call = .sevenOut then .ok .lose else .ok .carry
  | small => .ok (hitsVerdict sum v.trackers.smallHits Trackers.smallMask Odds.small)
  | tall => .ok (hitsVerdict sum v.trackers.tallHits Trackers.tallMask Odds.tall)
  | all => .ok (hitsVerdict sum v.trackers.allHits Trackers.allMask Odds.all)
  | ride =>
    if v.call = .sevenOut then
      match Odds.ride v.trackers.rideWins with
      | some odds => .ok (.win odds)
      | none => .ok .lose
    else .ok .carry
  | corner =>
    match v.phase with
    | .comeOut =>
      if sum = 7 then .ok (.win Odds.cornerComeOut)
      else if Dice.isPointNumber sum then .ok .carry
      else .ok .lose
    | .point _ => if sum = 7 then .ok (.win Odds.cornerPoint) else .ok .lose

end Spot

end DiceHouse
