import DiceHouse.Amount

/-!
# The treasury

The treasury keeps the lifetime totals of the staking rounds. A round that is resolved says where
its pool went in a `Split`, which the treasury records.
-/

namespace DiceHouse

/-- Where the pool of a resolved round went, apart from the winners. -/
structure Split where
  /-- Taken from the losing stake for the house. -/
  fee : Nat := 0
  /-- Destroyed. -/
  burned : Nat := 0
  /-- Handed to the next round. -/
  carried : Nat := 0
  deriving DecidableEq, Repr

/-- Lifetime totals of the staking rounds. -/
structure Treasury where
  totalFees : Nat
  totalBurned : Nat
  totalCarried : Nat
  totalClaimed : Nat
  deriving DecidableEq, Repr

namespace Treasury

def blank : Treasury := ⟨0, 0, 0, 0⟩

/-- Records where a pool went. -/
def record (t : Treasury) (split : Split) : Except Fault Treasury := do
  let totalFees ← Amount.add t.totalFees split.fee
  let totalBurned ← Amount.add t.totalBurned split.burned
  let totalCarried ← Amount.add t.totalCarried split.carried
  return { t with totalFees, totalBurned, totalCarried }

/-- Records what a winner was paid. -/
def claim (t : Treasury) (amount : Nat) : Except Fault Treasury := do
  let totalClaimed ← Amount.add t.totalClaimed amount
  return { t with totalClaimed }

end Treasury

end DiceHouse
