import DiceHouse.Fault

/-!
# Dice

A roll is a square of the 6 × 6 board and the two dice that name it: square `s` is row `s / 6 + 1`,
column `s % 6 + 1`. The rest of the module sorts dice sums into the classes that bets speak of and
numbers the members of each class, in ascending order, for tables indexed by them.
-/

namespace DiceHouse

/-- How many squares the board has. -/
abbrev squareCount : Nat := 36

/-- A square of the board. -/
abbrev Square := Fin squareCount

/-- The square with this number, if there is one. -/
def Square.ofNumber (n : Nat) : Except Fault Square :=
  if h : n < squareCount then .ok ⟨n, h⟩ else .error .invalidSquare

theorem Square.ofNumber_val (s : Square) : Square.ofNumber s = .ok s := by
  simp [Square.ofNumber]

/-- One roll: the square it landed on and the dice shown there. -/
structure Roll where
  square : Nat
  die1 : Nat
  die2 : Nat
  deriving DecidableEq, Repr

namespace Roll

/-- The roll that lands on a square. -/
def ofSquare (s : Square) : Roll := ⟨s, s / 6 + 1, s % 6 + 1⟩

/-- The roll on the square with this number, if there is one. -/
def ofSquareNumber (n : Nat) : Except Fault Roll := ofSquare <$> Square.ofNumber n

/-- The roll that shows these dice, if each has one to six pips. -/
def ofDice (die1 die2 : Nat) : Except Fault Roll :=
  if 1 ≤ die1 ∧ die1 ≤ 6 ∧ 1 ≤ die2 ∧ die2 ≤ 6 then
    ofSquareNumber ((die1 - 1) * 6 + (die2 - 1))
  else .error .invalidSquare

/-- The sum of the dice. -/
def sum (r : Roll) : Nat := r.die1 + r.die2

/-- A pair, the hard way to roll an even sum. -/
def isHard (r : Roll) : Bool := r.die1 == r.die2

/-- Naming a square's dice names the square. -/
theorem ofDice_ofSquare (s : Square) :
    ofDice (ofSquare s).die1 (ofSquare s).die2 = .ok (ofSquare s) := by
  have hs : s.val < 36 := s.isLt
  have he : s.val / 6 * 6 + s.val % 6 = s.val := by omega
  unfold ofDice
  rw [if_pos (by simp only [ofSquare]; omega)]
  simp only [ofSquare, ofSquareNumber, Nat.add_sub_cancel, he, Square.ofNumber_val]
  rfl

/-- The dice of a square sum to at least 2 and at most 12. -/
theorem sum_ofSquare_range (s : Square) : 2 ≤ (ofSquare s).sum ∧ (ofSquare s).sum ≤ 12 := by
  revert s
  decide

end Roll

namespace Dice

/-! ## Classes of sums -/

/-- A come-out roll that loses on the line. -/
def isCraps (sum : Nat) : Bool := sum == 2 || sum == 3 || sum == 12

/-- A come-out roll that wins on the line. -/
def isNatural (sum : Nat) : Bool := sum == 7 || sum == 11

/-- The sums that can become the point, in ascending order. -/
def pointNumbers : Vector Nat 6 := #v[4, 5, 6, 8, 9, 10]

/-- The sums that can be rolled as a pair and be bet on as such, in ascending order. -/
def hardwayNumbers : Vector Nat 4 := #v[4, 6, 8, 10]

/-- The sums of two dice, in ascending order. -/
def sums : Vector Nat 11 := #v[2, 3, 4, 5, 6, 7, 8, 9, 10, 11, 12]

/-- A sum that can become the point. -/
def isPointNumber (sum : Nat) : Bool := 4 ≤ sum && sum ≤ 10 && sum != 7

/-- A sum that wins in the field. -/
def isFieldWinner (sum : Nat) : Bool := (2 ≤ sum && sum ≤ 4) || (9 ≤ sum && sum ≤ 12)

/-- A sum that can be bet on to come before, or after, a seven. -/
def isRaceNumber (sum : Nat) : Bool := 2 ≤ sum && sum ≤ 12 && sum != 7

/-! ## Places within a class -/

/-- The place of a point number among the point numbers. -/
def pointIndex? : Nat → Option (Fin 6)
  | 4 => some 0
  | 5 => some 1
  | 6 => some 2
  | 8 => some 3
  | 9 => some 4
  | 10 => some 5
  | _ => none

/-- The place of a hardway number among the hardway numbers. -/
def hardwayIndex? : Nat → Option (Fin 4)
  | 4 => some 0
  | 6 => some 1
  | 8 => some 2
  | 10 => some 3
  | _ => none

/-- The place of a sum among the sums of two dice. -/
def sumIndex? (sum : Nat) : Option (Fin 11) :=
  if h : 2 ≤ sum ∧ sum ≤ 12 then some ⟨sum - 2, by omega⟩ else none

theorem pointIndex?_eq_some_iff {n : Nat} {i : Fin 6} :
    pointIndex? n = some i ↔ pointNumbers[i] = n := by
  constructor
  · intro h
    unfold pointIndex? at h
    split at h <;> first | contradiction | (cases h; rfl)
  · rintro rfl
    revert i
    decide

theorem hardwayIndex?_eq_some_iff {n : Nat} {i : Fin 4} :
    hardwayIndex? n = some i ↔ hardwayNumbers[i] = n := by
  constructor
  · intro h
    unfold hardwayIndex? at h
    split at h <;> first | contradiction | (cases h; rfl)
  · rintro rfl
    revert i
    decide

theorem sumIndex?_eq_some_iff {n : Nat} {i : Fin 11} :
    sumIndex? n = some i ↔ n = i + 2 := by
  unfold sumIndex?
  split
  · next h => simp [Fin.ext_iff]; omega
  · next h => simp; omega

end Dice

end DiceHouse
