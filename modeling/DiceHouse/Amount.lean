import DiceHouse.Fault

/-!
# Amounts

Amounts, counters and slots are natural numbers below `Amount.limit`, the first number that does
not fit in 64 bits. The operations here keep a result only if it fits; otherwise they refuse with
`Fault.overflow`. So a value that was built with them never wraps around, and the lemmas below say
exactly when one succeeds.
-/

namespace DiceHouse.Amount

/-- The first number that is no amount. -/
def limit : Nat := Nat.pow 2 64

/-- The first number that is too large for an intermediate product. -/
def productLimit : Nat := Nat.pow 2 128

/-- The greatest amount. -/
def greatest : Nat := limit - 1

/-- Keeps a number that is an amount. -/
def fit (n : Nat) : Except Fault Nat :=
  if n < limit then .ok n else .error .overflow

/-- The sum, if it is an amount. -/
def add (a b : Nat) : Except Fault Nat := fit (a + b)

/-- The difference, if it is not negative. -/
def sub (a b : Nat) : Except Fault Nat :=
  if b ≤ a then .ok (a - b) else .error .overflow

/-- The sum, or the greatest amount if the sum is larger. -/
def addSaturating (a b : Nat) : Nat := min (a + b) greatest

/-- The sum, counted modulo `limit`. -/
def addWrapping (a b : Nat) : Nat := (a + b) % limit

/-- A product that is kept in twice the width of an amount. -/
def product (a b : Nat) : Except Fault Nat :=
  if a * b < productLimit then .ok (a * b) else .error .overflow

/-! ## When an operation succeeds -/

theorem fit_eq_ok_iff {n m : Nat} : fit n = .ok m ↔ n < limit ∧ m = n := by
  unfold fit
  split
  · next h => simp [h, eq_comm]
  · next h => simp [h]

theorem add_eq_ok_iff {a b c : Nat} : add a b = .ok c ↔ a + b < limit ∧ c = a + b := fit_eq_ok_iff

/-- A sum that is an amount is told. -/
theorem add_of_lt {a b : Nat} (h : a + b < limit) : add a b = .ok (a + b) := if_pos h

/-- A sum that is too large is refused. -/
theorem add_of_le {a b : Nat} (h : limit ≤ a + b) : add a b = .error .overflow :=
  if_neg (Nat.not_lt_of_le h)

theorem sub_eq_ok_iff {a b c : Nat} : sub a b = .ok c ↔ b ≤ a ∧ c = a - b := by
  unfold sub
  split
  · next h => simp [h, eq_comm]
  · next h => simp [h]

theorem product_eq_ok_iff {a b c : Nat} :
    product a b = .ok c ↔ a * b < productLimit ∧ c = a * b := by
  unfold product
  split
  · next h => simp [h, eq_comm]
  · next h => simp [h]

end DiceHouse.Amount
