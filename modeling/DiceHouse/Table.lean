import DiceHouse.Amount
import DiceHouse.Phase

/-!
# The table

All players share one line. The table keeps its phase, the dice of the last roll, the house's
bankroll with what of it is reserved, and lifetime totals. Rolls are applied in the order of their
rounds, each once; a log of the last `logLength` rounds remembers the phase before each roll, so
that a seat may be settled late. Every change counts in `version`, which wraps around.
-/

namespace DiceHouse

/-- The shared table. -/
structure Table where
  /-- The last round whose roll was applied; 0 before any. -/
  epoch : Nat
  version : Nat
  /-- The stored form of the phase. -/
  point : Nat
  /-- Whether the line is coming out, as the number 0 or 1. -/
  comeOutFlag : Nat
  lastDie1 : Nat
  lastDie2 : Nat
  /-- The stored phase before the roll of each recent round, by round modulo its length. -/
  phaseLog : Vector Nat 64
  /-- Rolls since the last seven-out. -/
  shooterRolls : Nat
  bankroll : Nat
  /-- The worst case of all wagers that ride. -/
  reserved : Nat
  totalWagered : Nat
  totalCollected : Nat
  totalPayouts : Nat
  deriving DecidableEq, Repr

/-- How many rounds the log remembers. -/
abbrev logLength : Nat := 64

/-- What settling a seat against a round amounts to. -/
inductive Turn where
  /-- Judge its wagers against a roll made in this phase. -/
  | settle (phase : Phase)
  /-- Nothing rides: the seat only moves up to the round. -/
  | sync
  deriving DecidableEq, Repr

namespace Table

/-- A table whose every field is zero. -/
def blank : Table where
  epoch := 0
  version := 0
  point := 0
  comeOutFlag := 0
  lastDie1 := 0
  lastDie2 := 0
  phaseLog := Vector.replicate logLength 0
  shooterRolls := 0
  bankroll := 0
  reserved := 0
  totalWagered := 0
  totalCollected := 0
  totalPayouts := 0

/-! ## Phase -/

def isComingOut (t : Table) : Bool := t.comeOutFlag == 1

/-- The phase of the line. -/
def phase (t : Table) : Except Fault Phase := Phase.ofPoint t.point

def setPhase (t : Table) (phase : Phase) : Table :=
  { t with point := phase.toPoint, comeOutFlag := if phase.isComeOut then 1 else 0 }

/-- Where the log keeps a round. -/
def logIndex (round : Nat) : Fin logLength := Fin.ofNat logLength round

/-- Applies the roll of the round after the last. -/
def applyRoll (t : Table) (round : Nat) (roll : Roll) : Except Fault (Table × Call) := do
  let next ← Amount.add t.epoch 1
  require (round = next) .staleEpoch
  let before ← t.phase
  let call : Call := (before.step roll.sum).2
  let rolled : Table := { t with
    phaseLog := t.phaseLog.set (logIndex round) before.toPoint
    epoch := round
    lastDie1 := roll.die1
    lastDie2 := roll.die2
    shooterRolls := if call = .sevenOut then 0 else Amount.addSaturating t.shooterRolls 1
    version := Amount.addWrapping t.version 1 }
  return (rolled.setPhase (before.step roll.sum).1, call)

/-- Applies the roll of a round unless the table has it; says which call was made. -/
def catchUp (t : Table) (round : Nat) (roll : Roll) : Except Fault (Table × Option Call) := do
  if round ≤ t.epoch then return (t, none)
  else
    let (rolled, call) ← t.applyRoll round roll
    return (rolled, some call)

/-- The phase before the roll of a round that the log remembers. -/
def phaseBefore (t : Table) (round : Nat) : Except Fault Phase := do
  require (round ≠ 0 ∧ round ≤ t.epoch ∧ t.epoch - round < logLength) .staleEpoch
  Phase.ofPoint t.phaseLog[logIndex round]

/-- Whether a seat last settled against a round can no longer be settled. -/
def isBeyondLog (t : Table) (epoch : Nat) : Bool := logLength < t.epoch - epoch

/-- How a seat last settled against `epoch` moves on to a round whose roll the table has. One with
wagers that ride can only take the round after its own. -/
def turn (t : Table) (epoch : Nat) (hasRiding : Bool) (round : Nat) : Except Fault Turn := do
  require (round ≤ t.epoch) .staleEpoch
  require (epoch ≠ round) .alreadySettled
  if round = epoch + 1 then return .settle (← t.phaseBefore round)
  else
    require (¬hasRiding ∧ epoch ≤ round) .staleEpoch
    return .sync

/-! ## Money -/

/-- The bankroll that no wager ties up. -/
def available (t : Table) : Nat := t.bankroll - t.reserved

/-- Ties up bankroll for stake newly placed. -/
def reserve (t : Table) (stake worst : Nat) : Except Fault Table := do
  require (worst ≤ t.available) .bankrollShort
  let reserved ← Amount.add t.reserved worst
  let totalWagered ← Amount.add t.totalWagered stake
  return { t with reserved, totalWagered, version := Amount.addWrapping t.version 1 }

/-- Books a settlement: lost stakes join the bankroll, profit leaves it. -/
def book (t : Table) (profit collected released : Nat) : Except Fault Table := do
  let grown ← Amount.add t.bankroll collected
  require (profit ≤ grown) .bankrollShort
  let reserved ← Amount.sub t.reserved released
  let totalCollected ← Amount.add t.totalCollected collected
  let totalPayouts ← Amount.add t.totalPayouts profit
  return { t with
    bankroll := grown - profit
    reserved
    totalCollected
    totalPayouts
    version := Amount.addWrapping t.version 1 }

/-- Adds to the bankroll. -/
def fund (t : Table) (amount : Nat) : Except Fault Table := do
  let bankroll ← Amount.add t.bankroll amount
  return { t with bankroll, version := Amount.addWrapping t.version 1 }

end Table

end DiceHouse
