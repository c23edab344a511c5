import DiceHouse.Proofs.Round.Pool
import Mathlib.Data.Set.Lattice
import Mathlib.Order.CompletePartialOrder
import Mathlib.Order.Interval.Set.Basic

/-!
# The books of a round

What a round keeps is what its players' tickets say, square by square: the stake, the part of it
that predicted the square's sum, the number of tickets, and which units of the stake are whose. It
is so from the start, after any orders of any players, granted or refused. `Round.Sold` has all of
it but the number of tickets. That counter stops at the greatest amount; it never gets there, since
every ticket it counts put at least one unit on the square, and the stake on a square is an amount.
-/

namespace DiceHouse

/-- The units of a square's stake that are the ticket's. -/
def Ticket.units {ν : Type} (t : Ticket ν) (square : Square) : Set Nat :=
  Set.Ico (t.before.get square) (t.before.get square + t.staked.get square)

namespace Round

variable {κ ν : Type} {r : Round κ}

/-- What a round keeps is what its tickets say, and so is their number. -/
structure Tallied (r : Round κ) (tickets : Multiset (Ticket ν)) : Prop extends Sold r tickets where
  counted : ∀ square : Square,
    r.tickets.get square = tickets.countP fun t => 0 < t.staked.get square

/-- A square has no more tickets than units of stake. -/
theorem Sold.countP_le {tickets : Multiset (Ticket ν)} (h : Sold r tickets) (square : Square) :
    tickets.countP (fun t => 0 < t.staked.get square) ≤ r.staked.get square :=
  (countP_pos_le_sum tickets fun t => t.staked.get square).trans_eq (h.staked square).symm

/-- Every stake keeps the tally. -/
theorem Tallied.stake {square amount prediction : Nat} {t : Ticket κ} {rest : Multiset (Ticket κ)}
    {staked : Round κ × Ticket κ} (h : Tallied r (t ::ₘ rest))
    (hs : r.stake t square amount prediction = .ok staked) :
    Tallied staked.1 (staked.2 ::ₘ rest) := by
  obtain ⟨s, p, -, -, hpos, hfresh, -, hfits, -, hround, hticket⟩ := stake_ok hs
  refine ⟨h.toSold.stake hs, fun k => ?_⟩
  have hold := h.counted k
  rw [Multiset.countP_cons] at hold ⊢
  rw [hround, hticket]
  dsimp only
  rw [get_set, get_set]
  by_cases hk : k = s
  · -- the ticket was not counted on the square, and there is room to count it
    subst hk
    have hle := h.countP_le k
    rw [← h.counted k] at hle
    rw [hfresh, if_neg (Nat.lt_irrefl 0), Nat.add_zero] at hold
    rw [if_pos rfl, if_pos rfl, if_pos hpos, ← hold]
    refine Nat.min_eq_left ?_
    unfold Amount.greatest
    omega
  · rw [if_neg hk, if_neg hk]
    exact hold

end Round

namespace Pool

variable {ι κ : Type} [Fintype ι]

/-- What a round keeps about its players' tickets. -/
structure Tallied (p : Pool ι κ) : Prop where
  total : ∑ square : Square, p.round.staked.get square = p.round.totalStaked
  staked : ∀ square : Square, p.round.staked.get square = ∑ i, (p.ticket i).staked.get square
  counted : ∀ square : Square,
    p.round.tickets.get square
      = (Finset.univ.filter fun i => 0 < (p.ticket i).staked.get square).card
  /-- The stake of those whose prediction is the square's sum. -/
  predicted : ∀ square : Square, p.round.predicted.get square =
    ∑ i with (p.ticket i).prediction = (Roll.ofSquare square).sum, (p.ticket i).staked.get square
  disjoint : ∀ square : Square,
    Pairwise fun i j => Disjoint ((p.ticket i).units square) ((p.ticket j).units square)
  covered : ∀ square : Square,
    ⋃ i, (p.ticket i).units square = Set.Ico 0 (p.round.staked.get square)
  totals : ∀ i, (p.ticket i).total = ∑ square : Square, (p.ticket i).staked.get square

section Players

variable {p : Pool ι κ}

theorem sum_tickets (p : Pool ι κ) (f : Ticket κ → Nat) :
    (p.tickets.map f).sum = ∑ i, f (p.ticket i) := by
  rw [tickets, Multiset.map_map]
  rfl

/-- Nobody has a unit beyond the stake on a square. -/
theorem not_covers_of_le (h : p.round.Sold p.tickets) {square : Square} {unit : Nat}
    (hunit : p.round.staked.get square ≤ unit) (i : ι) : ¬(p.ticket i).covers square unit := by
  have hcount := h.covered square unit
  rw [if_neg (Nat.not_lt_of_le hunit), Multiset.countP_eq_zero] at hcount
  exact hcount (p.ticket i) (Multiset.mem_map_of_mem p.ticket (Finset.mem_univ_val i))

theorem eq_of_covers (h : p.round.Sold p.tickets) {square : Square} {unit : Nat} {i j : ι}
    (hi : (p.ticket i).covers square unit) (hj : (p.ticket j).covers square unit) : i = j := by
  rcases Nat.lt_or_ge unit (p.round.staked.get square) with hunit | hunit
  · obtain ⟨k, -, hothers⟩ := exists_covers h hunit
    have hone : ∀ l, (p.ticket l).covers square unit → l = k := fun l hl =>
      Classical.byContradiction fun hne => hothers l hne hl
    exact (hone i hi).trans (hone j hj).symm
  · exact absurd hi (not_covers_of_le h hunit i)

/-- A tally over the tickets is one over their owners. -/
theorem tallied_of_round (h : p.round.Tallied p.tickets) : p.Tallied := by
  constructor
  case total => exact h.total.symm
  case staked =>
    intro square
    rw [h.staked, sum_tickets]
  case counted =>
    intro square
    rw [h.counted, tickets, Multiset.countP_map]
    rfl
  case predicted =>
    intro square
    rw [h.predicted, sum_tickets, Finset.sum_filter]
    rfl
  case disjoint =>
    intro square i j hne
    exact Set.disjoint_left.mpr fun unit hi hj => hne (eq_of_covers h.toSold hi hj)
  case covered =>
    intro square
    ext unit
    rw [Set.mem_iUnion, Set.mem_Ico]
    constructor
    · rintro ⟨i, hi⟩
      refine ⟨Nat.zero_le unit, Nat.lt_of_not_le fun hunit => ?_⟩
      exact not_covers_of_le h.toSold hunit i hi
    · rintro ⟨-, hunit⟩
      obtain ⟨i, hi, -⟩ := exists_covers h.toSold hunit
      exact ⟨i, hi⟩
  case totals =>
    intro i
    exact h.totals _ (Multiset.mem_map_of_mem p.ticket (Finset.mem_univ_val i))

end Players

theorem tallied_fresh (nobody rentPayer : κ) (owner : ι → κ) (number : ι → Nat)
    (id carryIn expiresAt : Nat) :
    (Round.start nobody id carryIn expiresAt rentPayer).Tallied
      (fresh (Round.start nobody id carryIn expiresAt rentPayer) owner number).tickets := by
  refine ⟨sold_fresh nobody rentPayer owner number id carryIn expiresAt, fun square => ?_⟩
  have hle := (sold_fresh nobody rentPayer owner number id carryIn expiresAt).countP_le square
  simp only [Round.start, Round.blank, get_replicate] at hle ⊢
  omega

/-- The books of a round balance. After any orders of any players, granted or refused, on a round
that just started: the stakes on the squares add up to the round's total; each square's stake, its
count of tickets and its rightly predicted stake are those of the players; their parts of a square's
stake are disjoint and make up all of it; each ticket's total is the sum of its stakes. And an order
that is refused changes neither the round nor any ticket. -/
theorem books_balance [DecidableEq ι] {nobody rentPayer : κ} {owner : ι → κ} {number : ι → Nat}
    {id carryIn expiresAt : Nat} {orders : List (Order ι)} {p : Pool ι κ}
    (hp : p = (fresh (Round.start nobody id carryIn expiresAt rentPayer) owner number).run orders) :
    p.Tallied ∧ ∀ (o : Order ι) (fault : Fault), p.answer o = .error fault → p.step o = p := by
  constructor
  · rw [hp]
    exact tallied_of_round (run_keeps (fun htallied hs => htallied.stake hs)
      (tallied_fresh nobody rentPayer owner number id carryIn expiresAt) orders)
  · intro o fault hrefused
    cases hs : p.round.stake (p.ticket o.player) o.square o.amount o.prediction with
    | ok staked =>
      rw [(step_of_stake hs).1] at hrefused
      cases hrefused
    | error fault => exact (step_of_refused hs).2

/-- Two players share a square; one of them stakes there again and is refused. -/
theorem books_balance_threePlayers :
    threePlayers.Tallied ∧ threePlayers.step ⟨1, 26, 5, 8⟩ = threePlayers := by
  have hplayed : threePlayers = (fresh (Round.start 0 1 40 1000 0) (fun i => i.val) fun _ => 1).run
      [⟨0, 26, 100, 0⟩, ⟨2, 3, 1000, 0⟩, ⟨1, 26, 50, 8⟩, ⟨0, 26, 5, 0⟩] := rfl
  obtain ⟨htallied, hrefused⟩ := books_balance hplayed
  exact ⟨htallied, hrefused ⟨1, 26, 5, 8⟩ .alreadyStaked (by decide)⟩

end Pool

end DiceHouse
