import DiceHouse.Proofs.Seat.Exposure
import DiceHouse.Seat.Place

/-!
# What placing a wager changes

Stake that is placed rides at once. The seat then ties up more bankroll by exactly the reservation
that `Seat.place` asks for, though the reservation is told as a difference of two rounded quotients:
the one that is subtracted is what the spot tied up before.
-/

namespace DiceHouse.Seat

variable {κ : Type} {s : Seat κ} {spot : Spot} {amount : Nat} {phase : Phase}
  {placed : Seat κ × Nat}

/-- What a placement does to the seat and asks of the house. -/
structure Placed (s : Seat κ) (amount : Nat) (placed : Seat κ × Nat) : Prop where
  sound : placed.1.Sound
  owner : placed.1.owner = s.owner
  pending : placed.1.pending = s.pending
  positive : 0 < amount
  stakes : placed.1.stakes = s.stakes + amount
  exposure : placed.1.exposure = s.exposure + placed.2

theorem place_ok (hs : s.Sound) (h : s.place spot amount phase = .ok placed) :
    s.Placed amount placed := by
  unfold place at h
  simp only [bind_eq_ok_iff, require_eq_ok_iff, exists_const, pure_eq_ok_iff,
    Amount.sub_eq_ok_iff] at h
  obtain ⟨⟨hpos, -⟩, -, -, -, before, hbefore, after, hafter, t, ht, -, -, reservedBefore, hrb,
    reservedAfter, hra, reservation, ⟨hle, rfl⟩, rfl⟩ := h
  obtain ⟨hrides, hamount, -⟩ := Wager.add_ok (hs.holds hbefore).idle hpos hafter
  have hrisk : after.atRisk = after.amount := Wager.atRisk_of_rides hrides
  have hsound : t.Sound :=
    hs.setWager ⟨fun hr => by simp [hrides] at hr, fun _ => ⟨_, hra⟩⟩ ht
  have howner : t.owner = s.owner := owner_setWager ht
  have hpending : t.pending = s.pending := pending_setWager ht
  have hstakes := stakes_setWager hbefore ht
  have hexposure := exposure_setWager hbefore ht
  rw [hrisk, hamount] at hstakes
  rw [hrisk, Spot.tied_of_reserve hrb, Spot.tied_of_reserve hra] at hexposure
  -- trackers and lifetime totals are no part of what the sums measure
  have hstakes' : t.stakes = s.stakes + amount := by omega
  have hexposure' : t.exposure = s.exposure + (reservedAfter - reservedBefore) := by omega
  exact ⟨hsound, howner, hpending, hpos, hstakes', hexposure'⟩

end DiceHouse.Seat
