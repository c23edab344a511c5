import DiceHouse.Proofs.Round.Resolve
import DiceHouse.Round.Payout
import Mathlib.Algebra.Order.BigOperators.Group.Multiset
import Mathlib.Algebra.Order.Group.Nat

/-!
# The tickets of a round never cost more than its pool

A ticket's weight and its share are rounded down one by one, while the weight of the whole square
is rounded down once; so the shares add up to no more than the winnings. The jackpot's unit lies in
the stake of exactly one ticket.
-/

namespace DiceHouse

/-- The whole of a payout, however large. -/
def Payout.sum (p : Payout) : Nat := p.stake + p.share + p.jackpot

theorem Payout.total_eq_ok {p : Payout} {n : Nat} (h : p.total = .ok n) : n = p.sum := by
  unfold total at h
  simp only [bind_eq_ok_iff, Amount.add_eq_ok_iff] at h
  obtain ⟨_, ⟨-, rfl⟩, -, rfl⟩ := h
  rfl

namespace Round

variable {κ ν : Type} {r : Round κ} {square : Square} {tickets : Multiset (Ticket ν)}

/-- What a ticket is owed if this square wins. -/
def due (r : Round κ) (square : Square) (t : Ticket ν) : Payout where
  stake := t.staked.get square
  share := r.winnings * r.weight (t.prediction = (Roll.ofSquare square).sum) (t.staked.get square)
    / r.totalWeight square
  jackpot := if t.covers square r.jackpotUnit then r.jackpot else 0

theorem winningSquare_eq (h : r.winner = some square.val) : r.winningSquare = .ok square := by
  unfold winningSquare
  rw [h]
  exact Square.ofNumber_val square

/-- Nothing is owed before a square has won. -/
theorem isResolved_of_payout {t : Ticket ν} {p : Payout} (h : r.payout t = .ok p) :
    r.isResolved = true := by
  unfold payout winningSquare at h
  cases hw : r.winner with
  | none =>
    rw [hw] at h
    cases h
  | some number => rw [isResolved, hw, Option.isSome_some]

/-- What a ticket is owed depends neither on who got the jackpot nor on how much was claimed. -/
theorem payout_claimed (r : Round κ) (jackpotWinner : κ) (totalClaimed : Nat) (t : Ticket ν) :
    payout { r with jackpotWinner, totalClaimed } t = r.payout t := rfl

/-- Whoever staked nothing on the square is owed nothing. -/
theorem due_of_zero {t : Ticket ν} (h : t.staked.get square = 0) : r.due square t = {} := by
  unfold due
  rw [if_neg (Ticket.not_covers_of_zero h r.jackpotUnit), h]
  simp [weight]

theorem payout_ok {t : Ticket ν} {p : Payout} (hw : r.winner = some square.val)
    (hstaked : r.staked.get square ≠ 0) (h : r.payout t = .ok p) : p = r.due square t := by
  unfold payout at h
  rw [bind_eq_ok_iff] at h
  obtain ⟨s, hs, h⟩ := h
  cases hs.symm.trans (winningSquare_eq hw)
  dsimp only at h
  split at h
  · next hnone =>
    rw [pure_eq_ok_iff] at h
    rw [← h, due_of_zero (hnone.resolve_right hstaked)]
  · simp only [bind_eq_ok_iff, Amount.product_eq_ok_iff, Amount.fit_eq_ok_iff,
      Amount.add_eq_ok_iff, pure_eq_ok_iff] at h
    obtain ⟨-, ⟨-, rfl⟩, -, ⟨-, rfl⟩, -, ⟨-, rfl⟩, rfl⟩ := h
    rfl

/-- Nobody is owed anything if nobody staked on the square. -/
theorem payout_empty {t : Ticket ν} {p : Payout} (hw : r.winner = some square.val)
    (hstaked : r.staked.get square = 0) (h : r.payout t = .ok p) : p = {} := by
  unfold payout at h
  rw [bind_eq_ok_iff] at h
  obtain ⟨s, hs, h⟩ := h
  cases hs.symm.trans (winningSquare_eq hw)
  dsimp only at h
  rw [if_pos (.inr hstaked), pure_eq_ok_iff] at h
  exact h.symm

/-! ## Refusals -/

/-- A payout is refused before the draw, or for want of room. -/
def Owing (f : Fault) : Prop := f = .notResolved ∨ f = .invalidSquare ∨ f = .overflow

theorem owing_fit (n : Nat) : RefusedOnly Owing (Amount.fit n) := by
  intro f h
  unfold Amount.fit at h
  split at h
  · cases h
  · cases h
    exact .inr (.inr rfl)

theorem owing_add (a b : Nat) : RefusedOnly Owing (Amount.add a b) := owing_fit (a + b)

theorem owing_product (a b : Nat) : RefusedOnly Owing (Amount.product a b) := by
  intro f h
  unfold Amount.product at h
  split at h
  · cases h
  · cases h
    exact .inr (.inr rfl)

theorem owing_winningSquare (r : Round κ) : RefusedOnly Owing r.winningSquare := by
  intro f h
  unfold winningSquare at h
  split at h
  · cases h
    exact .inl rfl
  · unfold Square.ofNumber at h
    split at h
    · cases h
    · cases h
      exact .inr (.inl rfl)

theorem owing_payout (r : Round κ) (t : Ticket ν) : RefusedOnly Owing (r.payout t) := by
  unfold payout
  refine (owing_winningSquare r).bind fun square => ?_
  dsimp only
  split
  · exact refusedOnly_pure _
  · exact (owing_product _ _).bind fun _ => (owing_fit _).bind fun _ =>
      (owing_add _ _).bind fun _ => refusedOnly_pure _

/-! ## Shares -/

/-- A ticket weighs its stake and, if it is right, at most the bonus part of it. -/
theorem weight_le (r : Round κ) (square : Square) (t : Ticket ν) :
    r.weight (t.prediction = (Roll.ofSquare square).sum) (t.staked.get square) ≤ t.staked.get square
      + t.rightStake square * (r.bonusBps - Settings.wholeBps) / Settings.wholeBps := by
  unfold weight Ticket.rightStake
  by_cases hright : t.prediction = (Roll.ofSquare square).sum
  · rw [if_pos (decide_eq_true hright), if_pos hright]
    -- the multiple is the stake and the bonus part, and is rounded down as a whole
    have hwhole : t.staked.get square * r.bonusBps ≤ t.staked.get square * Settings.wholeBps
        + t.staked.get square * (r.bonusBps - Settings.wholeBps) := by
      rw [← Nat.mul_add]
      exact Nat.mul_le_mul_left _ (by omega)
    calc t.staked.get square * r.bonusBps / Settings.wholeBps
        ≤ (t.staked.get square * Settings.wholeBps
            + t.staked.get square * (r.bonusBps - Settings.wholeBps)) / Settings.wholeBps :=
          Nat.div_le_div_right hwhole
      _ = _ := by rw [Nat.add_comm, Nat.add_mul_div_right _ _ (by decide), Nat.add_comm]
  · rw [if_neg (by simpa using hright)]
    exact Nat.le_add_right _ _

/-- Together the tickets weigh at most what the square does. -/
theorem Sold.sum_weight_le (h : Sold r tickets) (square : Square) :
    (tickets.map fun t => r.weight (t.prediction = (Roll.ofSquare square).sum)
      (t.staked.get square)).sum ≤ r.totalWeight square := by
  unfold totalWeight
  rw [h.staked square, h.predicted square]
  refine (Multiset.sum_map_le_sum_map _ _ fun t _ => r.weight_le square t).trans ?_
  rw [Multiset.sum_map_add]
  exact Nat.add_le_add_left (sum_mul_div_le tickets _ _ _) _

/-- The shares never exceed the winnings. -/
theorem Sold.sum_share_le (h : Sold r tickets) (square : Square) :
    (tickets.map fun t => (r.due square t).share).sum ≤ r.winnings := by
  have hcomm : ∀ t ∈ tickets, (r.due square t).share =
      r.weight (t.prediction = (Roll.ofSquare square).sum) (t.staked.get square) * r.winnings
        / r.totalWeight square := fun t _ => by rw [due, Nat.mul_comm]
  rw [Multiset.map_congr rfl hcomm]
  exact (sum_mul_div_le tickets _ _ _).trans
    (Nat.div_le_of_le_mul (Nat.mul_le_mul_right _ (h.sum_weight_le square)))

/-! ## The pool -/

/-- One ticket gets the jackpot. -/
theorem Sold.sum_jackpot (h : Sold r tickets) (hunit : r.jackpotUnit < r.staked.get square) :
    (tickets.map fun t => (r.due square t).jackpot).sum = r.jackpot := by
  have hcount := h.covered square r.jackpotUnit
  rw [if_pos hunit] at hcount
  simp only [due]
  rw [sum_ite_eq_countP, hcount, Nat.one_mul]

/-- All that is owed is at most the stake on the square, the winnings and the jackpot. -/
theorem Sold.sum_due_le (h : Sold r tickets) (hunit : r.jackpotUnit < r.staked.get square) :
    (tickets.map fun t => (r.due square t).sum).sum
      ≤ r.staked.get square + r.winnings + r.jackpot := by
  have hshare := h.sum_share_le square
  have hstake : (tickets.map fun t => (r.due square t).stake).sum = r.staked.get square :=
    (h.staked square).symm
  simp only [Payout.sum, Multiset.sum_map_add, hstake, h.sum_jackpot hunit]
  omega

end Round

end DiceHouse
