import DiceHouse.Amount

/-!
# Odds

Odds of `num : den` pay a winning stake `s` the profit `s * num / den`, rounded down. Profit never
falls when the stake grows.
-/

namespace DiceHouse

/-- A payout ratio. -/
structure Odds where
  num : Nat
  den : Nat
  deriving DecidableEq, Repr

namespace Odds

/-- One for one. -/
def even : Odds := ⟨1, 1⟩

/-- The profit of a stake, before asking whether it is an amount. -/
def gain (o : Odds) (stake : Nat) : Nat := stake * o.num / o.den

/-- The profit on a winning stake, the stake itself not included. -/
def profit (o : Odds) (stake : Nat) : Except Fault Nat :=
  if o.den = 0 then .error .overflow else Amount.fit (o.gain stake)

theorem profit_eq_ok_iff {o : Odds} {s p : Nat} :
    o.profit s = .ok p ↔ o.den ≠ 0 ∧ o.gain s < Amount.limit ∧ p = o.gain s := by
  unfold profit
  split
  · next h => simp [h]
  · next h => simp [h, Amount.fit_eq_ok_iff]

theorem gain_mono (o : Odds) {s t : Nat} (h : s ≤ t) : o.gain s ≤ o.gain t :=
  Nat.div_le_div_right (Nat.mul_le_mul_right _ h)

end Odds

end DiceHouse
