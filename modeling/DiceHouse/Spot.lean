import DiceHouse.Odds.PayTables

/-!
# Spots

A spot is a place of the layout on which a player can have one wager. Spots on a number carry it;
a number that the spot cannot be on is no error until the spot is looked up: `Spot.index?` numbers
the spots that exist, and `Spot.reserve` is the most that a wager there can ever win.

`Spot.order` lists the spots in the order in which a roll decides them. It leaves out two places
that `index?` has: a number raced against the seven is never the seven itself.
-/

namespace DiceHouse

/-- A place on the layout. -/
inductive Spot where
  | passLine
  | dontPass
  | passOdds
  | dontPassOdds
  | comeBox
  | dontComeBox
  | come (number : Nat)
  | comeOdds (number : Nat)
  | dontCome (number : Nat)
  | dontComeOdds (number : Nat)
  | place (number : Nat)
  | hardway (number : Nat)
  | field
  | anySeven
  | anyCraps
  | yo
  | aces
  | twelve
  | yes (number : Nat)
  | no (number : Nat)
  | next (number : Nat)
  | fire
  | small
  | tall
  | all
  | ride
  | corner
  deriving DecidableEq, Repr

/-- How many wagers a player can have. -/
abbrev spotCount : Nat := 85

namespace Spot

/-- The name of a spot in the program's log. -/
def text : Spot → String
  | passLine => "PassLine"
  | dontPass => "DontPass"
  | passOdds => "PassOdds"
  | dontPassOdds => "DontPassOdds"
  | comeBox => "ComeBox"
  | dontComeBox => "DontComeBox"
  | come n => s!"Come({n})"
  | comeOdds n => s!"ComeOdds({n})"
  | dontCome n => s!"DontCome({n})"
  | dontComeOdds n => s!"DontComeOdds({n})"
  | place n => s!"Place({n})"
  | hardway n => s!"Hardway({n})"
  | field => "Field"
  | anySeven => "AnySeven"
  | anyCraps => "AnyCraps"
  | yo => "YoEleven"
  | aces => "Aces"
  | twelve => "Twelve"
  | yes n => s!"Yes({n})"
  | no n => s!"No({n})"
  | next n => s!"Next({n})"
  | fire => "Fire"
  | small => "Small"
  | tall => "Tall"
  | all => "All"
  | ride => "RideTheLine"
  | corner => "MugsysCorner"

/-! ## Numbering -/

/-- The numbers from `start` on, for the members of a class. -/
def block {k : Nat} (start : Nat) (fits : start + k ≤ spotCount) (i : Option (Fin k)) :
    Option (Fin spotCount) :=
  i.map fun j => ⟨start + j.val, by omega⟩

/-- The number of a spot, if it exists; spots on a number stand in the order of their numbers. -/
def index? : Spot → Option (Fin spotCount)
  | passLine => some 0
  | dontPass => some 1
  | passOdds => some 2
  | dontPassOdds => some 3
  | comeBox => some 4
  | dontComeBox => some 5
  | come n => block 6 (by decide) (Dice.pointIndex? n)
  | comeOdds n => block 12 (by decide) (Dice.pointIndex? n)
  | dontCome n => block 18 (by decide) (Dice.pointIndex? n)
  | dontComeOdds n => block 24 (by decide) (Dice.pointIndex? n)
  | place n => block 30 (by decide) (Dice.pointIndex? n)
  | hardway n => block 36 (by decide) (Dice.hardwayIndex? n)
  | field => some 40
  | anySeven => some 41
  | anyCraps => some 42
  | yo => some 43
  | aces => some 44
  | twelve => some 45
  | yes n => block 46 (by decide) (Dice.sumIndex? n)
  | no n => block 57 (by decide) (Dice.sumIndex? n)
  | next n => block 68 (by decide) (Dice.sumIndex? n)
  | fire => some 79
  | small => some 80
  | tall => some 81
  | all => some 82
  | ride => some 83
  | corner => some 84

/-- The spots in the order in which a roll decides them: single rolls, hardways, races, places,
come bets, the line, bonus bets. -/
def order : List Spot :=
  [field, anySeven, anyCraps, yo, aces, twelve]
    ++ Dice.sums.toList.map next
    ++ Dice.hardwayNumbers.toList.map hardway
    ++ (Dice.sums.toList.filter Dice.isRaceNumber).map yes
    ++ (Dice.sums.toList.filter Dice.isRaceNumber).map no
    ++ Dice.pointNumbers.toList.map place
    ++ [comeBox, dontComeBox]
    ++ Dice.pointNumbers.toList.flatMap (fun n => [come n, comeOdds n, dontCome n, dontComeOdds n])
    ++ [passLine, passOdds, dontPass, dontPassOdds, fire, small, tall, all, ride, corner]

/-- Each spot of the order exists, and no two have one number. -/
theorem order_index_nodup : (order.map index?).Nodup ∧ none ∉ order.map index? := by decide

/-! ## What a spot can win -/

/-- The best odds that the spot ever pays; they hang on nothing but the spot, so what is reserved
when a wager is placed is what is released when it ends. -/
def worstOdds : Spot → Except Fault Odds
  | passLine | dontPass | comeBox | dontComeBox | come _ | dontCome _ => .ok .even
  | passOdds => .ok ⟨2, 1⟩
  | dontPassOdds => .ok ⟨5, 6⟩
  | comeOdds n => Odds.taken n
  | dontComeOdds n => Odds.laid n
  | place n => Odds.place n
  | hardway n => Odds.hardway n
  | field => .ok ⟨3, 1⟩
  | anySeven => .ok Odds.anySeven
  | anyCraps => .ok Odds.anyCraps
  | yo => .ok Odds.yo
  | aces => .ok Odds.aces
  | twelve => .ok Odds.twelve
  | yes n => Odds.yes n
  | no n => Odds.no n
  | next n => Odds.next n
  | fire => .ok ⟨999, 1⟩
  | small => .ok Odds.small
  | tall => .ok Odds.tall
  | all => .ok Odds.all
  | ride => .ok ⟨150, 1⟩
  | corner => .ok Odds.cornerPoint

/-- The bankroll that so much stake on the spot ties up. -/
def reserve (spot : Spot) (amount : Nat) : Except Fault Nat := do
  (← spot.worstOdds).profit amount

/-! ## Relations between spots -/

/-- The bet behind which an odds bet stands. -/
def parent? : Spot → Option Spot
  | passOdds => some passLine
  | dontPassOdds => some dontPass
  | comeOdds n => some (come n)
  | dontComeOdds n => some (dontCome n)
  | _ => none

/-- Where a wager in a come box goes when its number is rolled. -/
def landing (box : Spot) (number : Nat) : Spot :=
  if box = comeBox then come number else dontCome number

/-- A bet on what several rolls bring, open to one wager at a time. -/
def isBonus : Spot → Bool
  | fire | small | tall | all | ride | corner => true
  | _ => false

/-! ## Requests -/

/-- The kinds of bets that a player can ask for. -/
inductive Kind where
  | passLine
  | dontPass
  | passOdds
  | dontPassOdds
  | come
  | dontCome
  | comeOdds
  | dontComeOdds
  | place
  | hardway
  | field
  | anySeven
  | anyCraps
  | yo
  | aces
  | twelve
  | fire
  | small
  | tall
  | all
  | ride
  | corner
  | yes
  | no
  | next
  deriving DecidableEq, Repr

namespace Kind

/-- Every kind, in the order of the numbers that stand for them. -/
def every : List Kind :=
  [passLine, dontPass, passOdds, dontPassOdds, come, dontCome, comeOdds, dontComeOdds, place,
    hardway, field, anySeven, anyCraps, yo, aces, twelve, fire, small, tall, all, ride, corner,
    yes, no, next]

/-- The number that stands for a kind in a request. -/
def code : Kind → Nat
  | passLine => 0
  | dontPass => 1
  | passOdds => 2
  | dontPassOdds => 3
  | come => 4
  | dontCome => 5
  | comeOdds => 6
  | dontComeOdds => 7
  | place => 8
  | hardway => 9
  | field => 10
  | anySeven => 11
  | anyCraps => 12
  | yo => 13
  | aces => 14
  | twelve => 15
  | fire => 16
  | small => 17
  | tall => 18
  | all => 19
  | ride => 20
  | corner => 21
  | yes => 26
  | no => 27
  | next => 28

/-- The kind that a number stands for. -/
def ofCode? (n : Nat) : Option Kind := every.find? fun k => k.code = n

theorem ofCode?_code (k : Kind) : ofCode? k.code = some k := by cases k <;> rfl

end Kind

/-- The number itself, if it can become the point. -/
def pointOf (number : Nat) : Except Fault Nat :=
  if Dice.isPointNumber number then .ok number else .error .invalidPoint

/-- The spot that a request asks for. A bet that is not on a number ignores the one it is given. -/
def ofRequest (kind : Kind) (number : Nat) : Except Fault Spot :=
  match kind with
  | .passLine => .ok passLine
  | .dontPass => .ok dontPass
  | .passOdds => .ok passOdds
  | .dontPassOdds => .ok dontPassOdds
  | .come => .ok comeBox
  | .dontCome => .ok dontComeBox
  | .comeOdds => comeOdds <$> pointOf number
  | .dontComeOdds => dontComeOdds <$> pointOf number
  | .place => place <$> pointOf number
  | .hardway =>
    if (Dice.hardwayIndex? number).isSome then .ok (hardway number) else .error .invalidPoint
  | .field => .ok field
  | .anySeven => .ok anySeven
  | .anyCraps => .ok anyCraps
  | .yo => .ok yo
  | .aces => .ok aces
  | .twelve => .ok twelve
  | .fire => .ok fire
  | .small => .ok small
  | .tall => .ok tall
  | .all => .ok all
  | .ride => .ok ride
  | .corner => .ok corner
  | .yes => if Dice.isRaceNumber number then .ok (yes number) else .error .invalidPoint
  | .no => if Dice.isRaceNumber number then .ok (no number) else .error .invalidPoint
  | .next => if (Dice.sumIndex? number).isSome then .ok (next number) else .error .invalidPoint

end Spot

end DiceHouse
