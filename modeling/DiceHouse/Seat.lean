import DiceHouse.Spot.Verdict
import DiceHouse.Wager

/-!
# Seats

A seat is one player's place at the table: a wager for every spot, the trackers of the bonus bets,
what may be collected, and lifetime totals. Spots read and write their wager through `wager` and
`setWager`, which address it by the spot's number; so a write shows at that number and nowhere
else. The type of the owner's name is left open: an address on the ledger, a key in bytes.
-/

namespace DiceHouse

/-- One player's wagers and totals. -/
structure Seat (κ : Type) where
  owner : κ
  /-- The last round this seat was settled against. -/
  epoch : Nat
  wagers : Vector Wager spotCount
  trackers : Trackers
  /-- Winnings and returned stakes that wait to be collected. -/
  pending : Nat
  totalWagered : Nat
  totalWon : Nat
  totalLost : Nat
  totalPushed : Nat
  deriving DecidableEq, Repr

namespace Seat

variable {κ : Type}

/-- The seat of a player who never bet. -/
def blank (owner : κ) : Seat κ where
  owner := owner
  epoch := 0
  wagers := Vector.replicate spotCount Wager.blank
  trackers := {}
  pending := 0
  totalWagered := 0
  totalWon := 0
  totalLost := 0
  totalPushed := 0

/-- The same seat under another type of names. -/
def mapOwner {ν : Type} (f : κ → ν) (s : Seat κ) : Seat ν where
  owner := f s.owner
  epoch := s.epoch
  wagers := s.wagers
  trackers := s.trackers
  pending := s.pending
  totalWagered := s.totalWagered
  totalWon := s.totalWon
  totalLost := s.totalLost
  totalPushed := s.totalPushed

/-! ## One wager -/

/-- The wager on a spot. -/
def wager (s : Seat κ) (spot : Spot) : Except Fault Wager :=
  match spot.index? with
  | some i => .ok (s.wagers.get i)
  | none => .error .invalidPoint

/-- The seat with another wager on a spot. -/
def setWager (s : Seat κ) (spot : Spot) (w : Wager) : Except Fault (Seat κ) :=
  match spot.index? with
  | some i => .ok { s with wagers := s.wagers.set i w i.isLt }
  | none => .error .invalidPoint

/-- Whether a wager rides on a spot. -/
def rides (s : Seat κ) (spot : Spot) : Bool :=
  match spot.index? with
  | some i => (s.wagers.get i).rides
  | none => false

theorem wager_of_index {s : Seat κ} {spot : Spot} {i : Fin spotCount} (h : spot.index? = some i) :
    s.wager spot = .ok (s.wagers.get i) := by
  simp [wager, h]

theorem setWager_of_index {s : Seat κ} {spot : Spot} {i : Fin spotCount} {w : Wager}
    (h : spot.index? = some i) :
    s.setWager spot w = .ok { s with wagers := s.wagers.set i w i.isLt } := by
  simp [setWager, h]

/-- What was written on a spot is read there. -/
theorem wager_setWager {s t : Seat κ} {spot : Spot} {w : Wager} (h : s.setWager spot w = .ok t) :
    t.wager spot = .ok w := by
  unfold setWager at h
  split at h
  · next i hi =>
    cases h
    rw [wager_of_index hi]
    exact congrArg _ (Vector.getElem_set_self i.isLt)
  · contradiction

/-! ## All wagers -/

/-- Whether any wager rides. -/
def hasRiding (s : Seat κ) : Bool := s.wagers.any Wager.rides

/-- The stake that rides on the dice. -/
def atRisk (s : Seat κ) : Except Fault Nat :=
  (s.wagers.toList.filter Wager.rides).foldlM (fun total w => Amount.add total w.amount) 0

end Seat

end DiceHouse
