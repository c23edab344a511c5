import DiceHouse.Dice

/-!
# Phases of the line

The line is either coming out or has a point. `Phase.step` is what one sum does to it, together
with the call that the table hears. The stored form of a phase is one number: 0 for a come-out,
otherwise the point.

A point is not restricted to the point numbers here: reading a stored number (`Phase.ofPoint`)
refuses others, and from a come-out only the remaining sums become a point.
-/

namespace DiceHouse

/-- The phase of the line before a roll. -/
inductive Phase where
  | comeOut
  | point (number : Nat)
  deriving DecidableEq, Repr

/-- What a roll did to the line. -/
inductive Call where
  /-- A roll with a point up that neither made it nor sevened out. -/
  | quiet
  /-- A seven or eleven on the come-out. -/
  | natural
  /-- A two, three or twelve on the come-out. -/
  | craps
  | pointEstablished (number : Nat)
  | pointMade (number : Nat)
  | sevenOut
  deriving DecidableEq, Repr

/-- The text of a call in the program's log. -/
def Call.text : Call → String
  | quiet => "None"
  | natural => "Natural"
  | craps => "Craps"
  | pointEstablished n => s!"PointEstablished({n})"
  | pointMade n => s!"PointMade({n})"
  | sevenOut => "SevenOut"

namespace Phase

/-- The phase whose stored form is this number. -/
def ofPoint (n : Nat) : Except Fault Phase :=
  if n = 0 then .ok comeOut
  else if (Dice.pointIndex? n).isSome then .ok (point n)
  else .error .invalidPoint

/-- The stored form. -/
def toPoint : Phase → Nat
  | comeOut => 0
  | point n => n

def isComeOut : Phase → Bool
  | comeOut => true
  | point _ => false

/-- What one sum does to the line. Making the point comes before sevening out. -/
def step (phase : Phase) (sum : Nat) : Phase × Call :=
  match phase with
  | comeOut =>
    if Dice.isNatural sum then (comeOut, .natural)
    else if Dice.isCraps sum then (comeOut, .craps)
    else (point sum, .pointEstablished sum)
  | point p =>
    if sum = p then (comeOut, .pointMade p)
    else if sum = 7 then (comeOut, .sevenOut)
    else (point p, .quiet)

/-- A come-out, or a point number as the point. -/
def Valid : Phase → Prop
  | comeOut => True
  | point n => (Dice.pointIndex? n).isSome

instance : DecidablePred Valid
  | comeOut => .isTrue trivial
  | point n => inferInstanceAs (Decidable ((Dice.pointIndex? n).isSome = true))

/-- Reading back what was stored gives the phase, for the phases that a line can be in. -/
theorem ofPoint_toPoint {phase : Phase} (h : phase.Valid) : ofPoint phase.toPoint = .ok phase := by
  cases phase with
  | comeOut => rfl
  | point n =>
    have h0 : n ≠ 0 := by rintro rfl; simp [Valid, Dice.pointIndex?] at h
    simp only [Valid] at h
    simp [ofPoint, toPoint, h0, h]

/-- A roll that decides nothing on the come-out makes its sum the point. -/
theorem step_to_point {sum : Nat} (hnatural : ¬Dice.isNatural sum = true)
    (hcraps : ¬Dice.isCraps sum = true) : (comeOut.step sum).1 = .point sum := by
  unfold step
  dsimp only
  rw [if_neg hnatural, if_neg hcraps]

/-- A point stays up until it or a seven comes. -/
theorem step_on_point {sum p : Nat} (hp : sum ≠ p) (hseven : sum ≠ 7) :
    ((point p).step sum).1 = .point p := by
  unfold step
  dsimp only
  rw [if_neg hp, if_neg hseven]

/-- The line stays in a phase it can be in, whatever two dice show. -/
theorem valid_step {phase : Phase} (h : phase.Valid) {sum : Nat} (lo : 2 ≤ sum) (hi : sum ≤ 12) :
    (phase.step sum).1.Valid := by
  cases phase with
  | comeOut =>
    obtain rfl | rfl | rfl | rfl | rfl | rfl | rfl | rfl | rfl | rfl | rfl :
      sum = 2 ∨ sum = 3 ∨ sum = 4 ∨ sum = 5 ∨ sum = 6 ∨ sum = 7 ∨ sum = 8 ∨ sum = 9 ∨ sum = 10
        ∨ sum = 11 ∨ sum = 12 := by omega
    all_goals decide
  | point p =>
    unfold step
    dsimp only
    split
    · trivial
    · split
      · trivial
      · exact h

end Phase

end DiceHouse
