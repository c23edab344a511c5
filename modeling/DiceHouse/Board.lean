import DiceHouse.Amount

/-!
# The board

The board points at the round that takes stakes. Its window is the slots from `start` up to, but
not including, `finish`; the roll is seeded by the hash of the first slot produced from `seedSlot`
on. `Board.advance` opens the next window after a short intermission, and `Board.rearm` replaces a
seed slot whose hash was missed by one that nobody knows yet.
-/

namespace DiceHouse

/-- The board's cursor. -/
structure Board where
  round : Nat
  start : Nat
  finish : Nat
  seedSlot : Nat
  /-- A pool that waits for the next round. -/
  carryover : Nat
  deriving DecidableEq, Repr

namespace Board

/-! ## Durations, in slots -/

def minute : Nat := 150

def hour : Nat := 60 * minute

def day : Nat := 24 * hour

/-- The pause between two windows. -/
def intermission : Nat := 35

/-- How far ahead a replaced seed slot lies. -/
def seedDelay : Nat := 4

/-- How long after its window closed a round can be claimed. -/
def claimPeriod : Nat := day

/-! ## Window -/

def blank : Board := ⟨0, 0, 0, 0, 0⟩

/-- Whether stakes are taken in a slot. -/
def isOpen (b : Board) (slot : Nat) : Bool := b.start ≤ slot && slot < b.finish

def requireOpen (b : Board) (slot : Nat) : Except Fault Unit :=
  require (b.isOpen slot) .windowClosed

def requireClosed (b : Board) (slot : Nat) : Except Fault Unit :=
  require (b.finish ≤ slot) .windowOpen

/-- The board of the next round, whose window opens after the intermission. -/
def advance (b : Board) (slot duration : Nat) : Except Fault Board := do
  let round ← Amount.add b.round 1
  let start ← Amount.add slot intermission
  let finish ← Amount.add start duration
  return { b with round, start, finish, seedSlot := finish }

/-- The board with a seed slot yet to come; the window stays as it is. -/
def rearm (b : Board) (slot : Nat) : Except Fault Board := do
  let seedSlot ← Amount.add slot seedDelay
  return { b with seedSlot }

/-- The board without the waiting pool. -/
def emptied (b : Board) : Board := { b with carryover := 0 }

end Board

end DiceHouse
