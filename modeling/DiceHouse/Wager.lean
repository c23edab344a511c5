import DiceHouse.Amount

/-!
# Wagers

A wager is an amount at stake with the stage it is in and how it last ended. Stage and ending are
kept as the numbers that a record stores; a number that stands for nothing reads as the first stage
or ending. A wager rides on the dice while its amount is positive and it is fresh or carried.
-/

namespace DiceHouse

/-- The stages of a wager. -/
inductive WagerStage where
  /-- Nothing was ever placed. -/
  | empty
  /-- Placed, waiting for its first roll. -/
  | fresh
  /-- Survived a roll without being decided. -/
  | carried
  /-- Decided, or moved elsewhere. -/
  | cleared
  deriving DecidableEq, Repr

namespace WagerStage

def code : WagerStage → Nat
  | empty => 0
  | fresh => 1
  | carried => 2
  | cleared => 3

def ofCode? : Nat → Option WagerStage
  | 0 => some empty
  | 1 => some fresh
  | 2 => some carried
  | 3 => some cleared
  | _ => none

theorem ofCode?_code (s : WagerStage) : ofCode? s.code = some s := by cases s <;> rfl

end WagerStage

/-- How a wager ended. -/
inductive WagerEnding where
  | none
  | won
  | lost
  | pushed
  deriving DecidableEq, Repr

namespace WagerEnding

def code : WagerEnding → Nat
  | none => 0
  | won => 1
  | lost => 2
  | pushed => 3

def ofCode? : Nat → Option WagerEnding
  | 0 => some none
  | 1 => some won
  | 2 => some lost
  | 3 => some pushed
  | _ => Option.none

theorem ofCode?_code (e : WagerEnding) : ofCode? e.code = some e := by cases e <;> rfl

end WagerEnding

/-- One bet held in escrow. -/
structure Wager where
  amount : Nat := 0
  stageCode : Nat := 0
  endingCode : Nat := 0
  deriving DecidableEq, Repr

namespace Wager

/-- The wager of a place that was never used. -/
def blank : Wager := {}

def stage (w : Wager) : WagerStage := (WagerStage.ofCode? w.stageCode).getD .empty

def ending (w : Wager) : WagerEnding := (WagerEnding.ofCode? w.endingCode).getD .none

/-- Whether stake rides on the dice. -/
def rides (w : Wager) : Bool := 0 < w.amount && (w.stage == .fresh || w.stage == .carried)

/-- The stake that rides on the dice. -/
def atRisk (w : Wager) : Nat := if w.rides then w.amount else 0

/-- Adds stake. A wager that rides keeps its stage; any other becomes fresh. -/
def add (w : Wager) (amount : Nat) : Except Fault Wager := do
  let total ← Amount.add w.amount amount
  if w.rides then return { w with amount := total }
  else return ⟨total, WagerStage.fresh.code, WagerEnding.none.code⟩

/-- Marks a wager that survived a roll. -/
def carry (w : Wager) : Wager :=
  if w.rides then { w with stageCode := WagerStage.carried.code } else w

/-- What is left of a wager that ended. -/
def cleared (ending : WagerEnding) : Wager := ⟨0, WagerStage.cleared.code, ending.code⟩

@[simp] theorem rides_blank : blank.rides = false := rfl

@[simp] theorem rides_cleared (e : WagerEnding) : (cleared e).rides = false := rfl

@[simp] theorem amount_carry (w : Wager) : w.carry.amount = w.amount := by
  unfold carry
  split <;> rfl

@[simp] theorem rides_carry (w : Wager) : w.carry.rides = w.rides := by
  unfold carry
  split
  · next h =>
    have hpos : 0 < w.amount := by simp [rides] at h; exact h.1
    simp [rides, stage, WagerStage.code, WagerStage.ofCode?, hpos] at h ⊢
    exact h
  · rfl

end Wager

end DiceHouse
