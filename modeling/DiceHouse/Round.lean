import DiceHouse.Bytes
import DiceHouse.Ticket

/-!
# Rounds

A round collects the stakes on each square of the board until it is resolved: a square wins, and
the pool is split. The operations are in modules of their own: staking, resolving, paying out.
-/

namespace DiceHouse

/-- One round of staking. -/
structure Round (κ : Type) where
  id : Nat
  /-- The stake on each square. -/
  staked : Vector Nat squareCount
  /-- The part of it whose owner predicted that square's sum. -/
  predicted : Vector Nat squareCount
  /-- The number of tickets on each square. -/
  tickets : Vector Nat squareCount
  /-- The slot hash the round was resolved with. -/
  seed : Bytes32
  /-- The number of the winning square, once there is one. -/
  winner : Option Nat
  die1 : Nat
  die2 : Nat
  /-- The last slot at which the round can be claimed. -/
  expiresAt : Nat
  rentPayer : κ
  /-- Who got the jackpot, once claimed. -/
  jackpotWinner : κ
  /-- The unit of the winning square's stake whose owner gets the jackpot. -/
  jackpotUnit : Nat
  jackpot : Nat
  /-- The pool that an earlier round handed on. -/
  carryIn : Nat
  totalStaked : Nat
  /-- What left the pool as fee or was burned. -/
  totalVaulted : Nat
  /-- The pool that the winners share. -/
  winnings : Nat
  totalClaimed : Nat
  /-- What a right prediction weighs in this round. -/
  bonusBps : Nat
  deriving DecidableEq, Repr

namespace Round

variable {κ : Type}

/-- A round whose every field is zero; square 0 has won it. -/
def blank (nobody : κ) : Round κ where
  id := 0
  staked := Vector.replicate squareCount 0
  predicted := Vector.replicate squareCount 0
  tickets := Vector.replicate squareCount 0
  seed := Bytes.fill32 0
  winner := some 0
  die1 := 0
  die2 := 0
  expiresAt := 0
  rentPayer := nobody
  jackpotWinner := nobody
  jackpotUnit := 0
  jackpot := 0
  carryIn := 0
  totalStaked := 0
  totalVaulted := 0
  winnings := 0
  totalClaimed := 0
  bonusBps := 0

/-- A fresh round without stakes. -/
def start (nobody : κ) (id carryIn expiresAt : Nat) (rentPayer : κ) : Round κ :=
  { blank nobody with id, carryIn, expiresAt, rentPayer, winner := none }

/-- The same round under another type of names. -/
def mapNames {ν : Type} (f : κ → ν) (r : Round κ) : Round ν :=
  { r with rentPayer := f r.rentPayer, jackpotWinner := f r.jackpotWinner }

def isResolved (r : Round κ) : Bool := r.winner.isSome

/-- The winning square. -/
def winningSquare (r : Round κ) : Except Fault Square :=
  match r.winner with
  | none => .error .notResolved
  | some n => Square.ofNumber n

/-- The roll that resolved the round. -/
def roll (r : Round κ) : Except Fault Roll := Roll.ofSquare <$> r.winningSquare

end Round

end DiceHouse
