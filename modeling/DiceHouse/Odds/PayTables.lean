import DiceHouse.Odds
import DiceHouse.Dice

/-!
# Pay tables

What each kind of bet pays, keyed by the number it is on. A number that the bet cannot be on is
`Fault.invalidPoint`; a count that earns nothing has no odds. Bets that race a number against the
seven, and bets on the next roll, pay the true odds of the dice: there are `6 - |7 - s|` ways to
roll `s` in 36.
-/

namespace DiceHouse.Odds

/-- A number bet on to come before a seven once a point is up. -/
def place : Nat → Except Fault Odds
  | 4 | 10 => .ok ⟨9, 5⟩
  | 5 | 9 => .ok ⟨7, 5⟩
  | 6 | 8 => .ok ⟨7, 6⟩
  | _ => .error .invalidPoint

/-- The odds taken behind a pass or come bet. -/
def taken : Nat → Except Fault Odds
  | 4 | 10 => .ok ⟨2, 1⟩
  | 5 | 9 => .ok ⟨3, 2⟩
  | 6 | 8 => .ok ⟨6, 5⟩
  | _ => .error .invalidPoint

/-- The odds laid behind a don't pass or don't come bet. -/
def laid : Nat → Except Fault Odds
  | 4 | 10 => .ok ⟨1, 2⟩
  | 5 | 9 => .ok ⟨2, 3⟩
  | 6 | 8 => .ok ⟨5, 6⟩
  | _ => .error .invalidPoint

/-- A number bet on to be rolled as a pair. -/
def hardway : Nat → Except Fault Odds
  | 4 | 10 => .ok ⟨7, 1⟩
  | 6 | 8 => .ok ⟨9, 5⟩
  | _ => .error .invalidPoint

/-- A number bet on to come before a seven. -/
def yes : Nat → Except Fault Odds
  | 2 | 12 => .ok ⟨6, 1⟩
  | 3 | 11 => .ok ⟨3, 1⟩
  | 4 | 10 => .ok ⟨2, 1⟩
  | 5 | 9 => .ok ⟨3, 2⟩
  | 6 | 8 => .ok ⟨6, 5⟩
  | _ => .error .invalidPoint

/-- A seven bet on to come before a number. -/
def no : Nat → Except Fault Odds
  | 2 | 12 => .ok ⟨1, 6⟩
  | 3 | 11 => .ok ⟨1, 3⟩
  | 4 | 10 => .ok ⟨1, 2⟩
  | 5 | 9 => .ok ⟨2, 3⟩
  | 6 | 8 => .ok ⟨5, 6⟩
  | _ => .error .invalidPoint

/-- A sum bet on to be the next roll. -/
def next : Nat → Except Fault Odds
  | 2 | 12 => .ok ⟨35, 1⟩
  | 3 | 11 => .ok ⟨17, 1⟩
  | 4 | 10 => .ok ⟨11, 1⟩
  | 5 | 9 => .ok ⟨8, 1⟩
  | 6 | 8 => .ok ⟨31, 5⟩
  | 7 => .ok ⟨5, 1⟩
  | _ => .error .invalidPoint

/-- A field bet on a sum that wins in the field; `triple` tells what a twelve pays. -/
def field (sum : Nat) (triple : Bool) : Odds :=
  match sum with
  | 2 => ⟨2, 1⟩
  | 12 => if triple then ⟨3, 1⟩ else ⟨2, 1⟩
  | _ => ⟨1, 1⟩

/-- What a run of line wins pays, from the fewest that pay onwards. -/
def rideNums : Vector Nat 9 := #v[2, 3, 5, 8, 10, 15, 25, 40, 150]

/-- The fewest line wins that pay. -/
def rideMinWins : Nat := 3

/-- A run of line wins ended by a seven-out; longer runs than the table's pay its last entry. -/
def ride (wins : Nat) : Option Odds :=
  if wins < rideMinWins then none
  else some ⟨rideNums[min (wins - rideMinWins) 8], 1⟩

/-- A number of different points made before a seven-out. -/
def fire (points : Nat) : Option Odds :=
  if points < 4 then none
  else if points = 4 then some ⟨24, 1⟩
  else if points = 5 then some ⟨249, 1⟩
  else some ⟨999, 1⟩

/-! ## Bets that do not depend on a number -/

def anySeven : Odds := ⟨4, 1⟩
def anyCraps : Odds := ⟨7, 1⟩
def yo : Odds := ⟨15, 1⟩
def aces : Odds := ⟨30, 1⟩
def twelve : Odds := ⟨30, 1⟩
def small : Odds := ⟨30, 1⟩
def tall : Odds := ⟨30, 1⟩
def all : Odds := ⟨150, 1⟩
def cornerComeOut : Odds := ⟨2, 1⟩
def cornerPoint : Odds := ⟨3, 1⟩

end DiceHouse.Odds
