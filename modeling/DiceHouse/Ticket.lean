import DiceHouse.Dice

/-!
# Tickets

A ticket is what one player staked in one round: an amount per square and the stake that others had
there before. With its first stake a ticket fixes a prediction of the dice sum, or none; later
stakes may repeat it or leave it out.
-/

namespace DiceHouse

/-- One player's stakes in one round. -/
structure Ticket (κ : Type) where
  owner : κ
  round : Nat
  staked : Vector Nat squareCount
  /-- The stake on each square before this ticket's. -/
  before : Vector Nat squareCount
  total : Nat
  /-- The predicted sum, or 0 for none. -/
  prediction : Nat
  deriving DecidableEq, Repr

namespace Ticket

variable {κ : Type}

/-- A ticket without stakes. -/
def blank (owner : κ) : Ticket κ where
  owner := owner
  round := 0
  staked := Vector.replicate squareCount 0
  before := Vector.replicate squareCount 0
  total := 0
  prediction := 0

/-- The same ticket under another type of names. -/
def mapOwner {ν : Type} (f : κ → ν) (t : Ticket κ) : Ticket ν :=
  { t with owner := f t.owner }

/-- The prediction in force after a stake that gives this one. -/
def fixPrediction (t : Ticket κ) (prediction : Nat) : Except Fault Nat := do
  require (prediction = 0 ∨ 2 ≤ prediction ∧ prediction ≤ 12) .invalidPrediction
  if t.total = 0 then return prediction
  else
    require (prediction = 0 ∨ prediction = t.prediction) .invalidPrediction
    return t.prediction

end Ticket

end DiceHouse
