import DiceHouse.Proofs.Round.Pool
import Mathlib.Algebra.Order.Ring.Nat

/-!
# Which payouts there is room for

Every number in a payout is an amount, for together the payouts are at most the pool. On the way to
a share, though, the winnings are multiplied with a weight, which may be ten times an amount, and
the product is kept in twice the width of an amount only. So a payout is refused exactly when that
product is too large.

If the weight is at most four times the stake the product always fits: the winnings and the stake
are parts of one pool, and four times the product of two numbers is at most the square of their sum.
At higher bonuses a pool of two huge stakes has a winner who cannot be paid.
-/

namespace DiceHouse

/-- A payout within an amount has a total. -/
theorem Payout.total_of_lt {p : Payout} (h : p.sum < Amount.limit) : p.total = .ok p.sum := by
  have hfirst : p.stake + p.share < Amount.limit := (Nat.le_add_right _ p.jackpot).trans_lt h
  unfold total
  rw [Amount.add_of_lt hfirst, ok_bind]
  exact Amount.add_of_lt h

namespace Round

variable {κ ν : Type} {r : Round κ} {square : Square} {tickets : Multiset (Ticket ν)} {t : Ticket ν}

/-- What a ticket weighs if this square wins. -/
def weightOf (r : Round κ) (square : Square) (t : Ticket ν) : Nat :=
  r.weight (t.prediction = (Roll.ofSquare square).sum) (t.staked.get square)

/-! ## One ticket among all -/

theorem weightOf_of_zero (h : t.staked.get square = 0) : r.weightOf square t = 0 := by
  unfold weightOf weight
  rw [h, Nat.zero_mul, Nat.zero_div, ite_self]

theorem Sold.staked_le (h : Sold r tickets) (ht : t ∈ tickets) :
    t.staked.get square ≤ r.staked.get square := by
  rw [h.staked square]
  exact le_sum_map (fun t => t.staked.get square) ht

theorem Sold.weightOf_le (h : Sold r tickets) (ht : t ∈ tickets) :
    r.weightOf square t ≤ r.totalWeight square :=
  (le_sum_map (r.weightOf square) ht).trans (h.sum_weight_le square)

/-- A ticket's interval ends within the square's stake, for its last unit is one of the square's. -/
theorem Sold.past_le (h : Sold r tickets) (ht : t ∈ tickets) (hpos : 0 < t.staked.get square) :
    t.before.get square + t.staked.get square ≤ r.staked.get square := by
  by_contra hlt
  have hcount := h.covered square (t.before.get square + t.staked.get square - 1)
  rw [if_neg (by omega)] at hcount
  refine Multiset.countP_eq_zero.mp hcount t ht ?_
  unfold Ticket.covers
  omega

/-- A share is at most all the winnings. -/
theorem Sold.share_le (h : Sold r tickets) (ht : t ∈ tickets) :
    r.winnings * r.weightOf square t / r.totalWeight square ≤ r.winnings := by
  refine Nat.div_le_of_le_mul ?_
  rw [Nat.mul_comm]
  exact Nat.mul_le_mul_right _ (h.weightOf_le ht)

/-! ## What a payout comes to -/

/-- A payout whose product does not fit is refused. -/
theorem Sold.payout_of_le (h : Sold r tickets) (ht : t ∈ tickets)
    (hwinner : r.winner = some square.val)
    (hproduct : Amount.productLimit ≤ r.winnings * r.weightOf square t) :
    r.payout t = .error .overflow := by
  have hpos : t.staked.get square ≠ 0 := by
    intro hzero
    rw [weightOf_of_zero hzero, Nat.mul_zero] at hproduct
    exact absurd hproduct (by decide)
  have hle : t.staked.get square ≤ r.staked.get square := h.staked_le ht
  have hrefused : Amount.product r.winnings (r.weightOf square t) = .error .overflow :=
    if_neg (Nat.not_lt_of_le hproduct)
  unfold weightOf at hrefused
  unfold payout
  rw [winningSquare_eq hwinner, ok_bind]
  dsimp only
  rw [if_neg (by omega), hrefused, error_bind]

/-- What there is for the winners is an amount, and the jackpot is one of theirs. -/
def Affords (r : Round κ) (square : Square) : Prop :=
  r.staked.get square ≠ 0 → r.jackpotUnit < r.staked.get square ∧
    r.staked.get square + r.winnings + r.jackpot < Amount.limit

section Affords

variable (h : Sold r tickets) (ht : t ∈ tickets) (hpool : r.Affords square)
include h ht hpool

/-- A payout whose product fits is what the ticket is owed. -/
theorem Sold.payout_of_lt (hwinner : r.winner = some square.val)
    (hproduct : r.winnings * r.weightOf square t < Amount.productLimit) :
    r.payout t = .ok (r.due square t) := by
  have hle : t.staked.get square ≤ r.staked.get square := h.staked_le ht
  unfold payout
  rw [winningSquare_eq hwinner, ok_bind]
  dsimp only
  split
  · next hnone => rw [due_of_zero (by omega), pure_eq_ok_iff]
  · next hsome =>
    obtain ⟨-, hlimit⟩ := hpool (fun hzero => hsome (.inr hzero))
    have hpast : t.before.get square + t.staked.get square ≤ r.staked.get square :=
      h.past_le ht (by omega)
    have hshare : Amount.fit (r.winnings * r.weightOf square t / r.totalWeight square)
        = .ok (r.winnings * r.weightOf square t / r.totalWeight square) :=
      Amount.fit_eq_ok_iff.mpr ⟨(h.share_le ht).trans_lt (by omega), rfl⟩
    unfold weightOf at hproduct hshare
    rw [Amount.product_eq_ok_iff.mpr ⟨hproduct, rfl⟩, ok_bind, hshare, ok_bind,
      Amount.add_of_lt (by omega), ok_bind]
    rfl

/-- What a ticket is owed is within what there is. -/
theorem Sold.sum_due_lt : (r.due square t).sum < Amount.limit := by
  by_cases hzero : r.staked.get square = 0
  · rw [due_of_zero (Nat.eq_zero_of_le_zero (hzero ▸ h.staked_le ht))]
    decide
  · obtain ⟨hunit, hlimit⟩ := hpool hzero
    calc (r.due square t).sum
        ≤ (tickets.map fun t => (r.due square t).sum).sum :=
          le_sum_map (fun t => (r.due square t).sum) ht
      _ ≤ r.staked.get square + r.winnings + r.jackpot := h.sum_due_le hunit
      _ < Amount.limit := hlimit

/-- The product fits under a weight of at most four times the stake: the winnings and the stake are
parts of one amount, and four times their product is at most the square of their sum. -/
theorem Sold.mul_weightOf_lt (hweight : r.weightOf square t ≤ 4 * t.staked.get square) :
    r.winnings * r.weightOf square t < Amount.productLimit := by
  by_cases hzero : r.staked.get square = 0
  · rw [weightOf_of_zero (Nat.eq_zero_of_le_zero (hzero ▸ h.staked_le ht)), Nat.mul_zero]
    decide
  · obtain ⟨-, hlimit⟩ := hpool hzero
    have hle : t.staked.get square ≤ r.staked.get square := h.staked_le ht
    calc r.winnings * r.weightOf square t
        ≤ r.winnings * (4 * t.staked.get square) := Nat.mul_le_mul_left _ hweight
      _ = 4 * r.winnings * t.staked.get square := by rw [Nat.mul_left_comm, Nat.mul_assoc]
      _ ≤ (r.winnings + t.staked.get square) ^ 2 := four_mul_le_sq_add _ _
      _ < Amount.limit ^ 2 := Nat.pow_lt_pow_left (by omega) (by decide)
      _ = Amount.productLimit := by decide

end Affords

/-! ## When the weight is small enough -/

/-- The weight is at most four times the stake, unless a right prediction weighs more. -/
theorem weightOf_le_four_mul
    (h : t.prediction ≠ (Roll.ofSquare square).sum ∨ r.bonusBps ≤ 4 * Settings.wholeBps) :
    r.weightOf square t ≤ 4 * t.staked.get square := by
  unfold weightOf weight
  split
  · next hright =>
    have hbonus : r.bonusBps ≤ 4 * Settings.wholeBps :=
      h.resolve_left (not_not.mpr (of_decide_eq_true hright))
    calc t.staked.get square * r.bonusBps / Settings.wholeBps
        ≤ t.staked.get square * (4 * Settings.wholeBps) / Settings.wholeBps :=
          Nat.div_le_div_right (Nat.mul_le_mul_left _ hbonus)
      _ = 4 * t.staked.get square := by
          rw [← Nat.mul_assoc, Nat.mul_div_cancel _ (by decide), Nat.mul_comm]
  · exact Nat.le_mul_of_pos_left _ (by decide)

/-- A draw writes what a right prediction weighs. -/
theorem bonusBps_of_resolve {seed : Bytes32} {settings : Settings ν} {resolved : Round κ × Split}
    (h : r.resolve seed settings = .ok resolved) : resolved.1.bonusBps = settings.bonusBps := by
  unfold resolve at h
  simp only [bind_eq_ok_iff] at h
  obtain ⟨-, -, square, -, losing, -, pool, -, h⟩ := h
  split at h
  · rw [pure_eq_ok_iff] at h
    subst h
    rfl
  · simp only [bind_eq_ok_iff, pure_eq_ok_iff] at h
    obtain ⟨-, -, -, -, -, -, -, -, -, -, rfl⟩ := h
    rfl

end Round

namespace Pool

variable {ι κ ν : Type}

/-- There is room for a payout, unless the product on the way to its share is too large. Of a pool
that was opened, staked on and resolved, and whose stakes and carried part make an amount, every
player's payout is told, with its total, or refused for want of room; and the latter exactly if the
winnings times the ticket's weight need more than twice the width. They never do for a ticket
whose prediction is not the winning sum, nor under a bonus of at most four times the stake. -/
theorem payable [Fintype ι] [DecidableEq ι] {nobody rentPayer : κ} {owner : ι → κ}
    {id carryIn expiresAt : Nat} {orders : List (Order ι)} {p : Pool ι κ} {seed : Bytes32}
    {settings : Settings ν} {round : Round κ} {split : Split}
    (hp : p = (opened nobody rentPayer owner id carryIn expiresAt).run orders)
    (hresolve : p.round.resolve seed settings = .ok (round, split))
    (hpool : p.round.totalStaked + p.round.carryIn < Amount.limit) (i : ι) :
    ∃ square, round.winningSquare = .ok square ∧
      (∀ fault, round.payout (p.ticket i) = .error fault ↔ fault = .overflow ∧
        Amount.productLimit ≤ round.winnings * round.weightOf square (p.ticket i)) ∧
      (∀ paid, round.payout (p.ticket i) = .ok paid → ∃ amount, paid.total = .ok amount) ∧
      ((p.ticket i).prediction ≠ (Roll.ofSquare square).sum ∨
          settings.bonusBps ≤ 4 * Settings.wholeBps →
        ∃ paid amount, round.payout (p.ticket i) = .ok paid ∧ paid.total = .ok amount) := by
  obtain ⟨square, hdrawn⟩ : ∃ square, Round.Drawn p.round round split square :=
    Round.resolve_ok hresolve
  have hsold : round.Sold p.tickets := by
    have hsold : p.round.Sold p.tickets := by
      rw [hp]
      exact sold_run (sold_opened nobody rentPayer owner id carryIn expiresAt) orders
    exact hsold.congr hdrawn.staked hdrawn.predicted hdrawn.totalStaked
  have ht : p.ticket i ∈ p.tickets := Multiset.mem_map_of_mem p.ticket (Finset.mem_univ_val i)
  have haffords : round.Affords square := by
    intro hstaked
    rw [hdrawn.staked] at hstaked ⊢
    obtain ⟨-, -, hunit, hsplit⟩ := hdrawn.won hstaked
    exact ⟨hunit, by omega⟩
  have hdue : round.winnings * round.weightOf square (p.ticket i) < Amount.productLimit →
      round.payout (p.ticket i) = .ok (round.due square (p.ticket i)) :=
    hsold.payout_of_lt ht haffords hdrawn.winner
  have hover : Amount.productLimit ≤ round.winnings * round.weightOf square (p.ticket i) →
      round.payout (p.ticket i) = .error .overflow :=
    hsold.payout_of_le ht hdrawn.winner
  have htotal : (round.due square (p.ticket i)).total
      = .ok (round.due square (p.ticket i)).sum :=
    Payout.total_of_lt (hsold.sum_due_lt ht haffords)
  refine ⟨square, Round.winningSquare_eq hdrawn.winner, fun fault => ?_, fun paid hpaid => ?_,
    fun hsmall => ?_⟩
  · rcases Nat.lt_or_ge (round.winnings * round.weightOf square (p.ticket i)) Amount.productLimit
      with hlt | hle
    · rw [hdue hlt]
      exact ⟨fun h => (nomatch h), fun h => absurd hlt (Nat.not_lt_of_le h.2)⟩
    · rw [hover hle, Except.error.injEq, eq_comm]
      exact (and_iff_left hle).symm
  · rcases Nat.lt_or_ge (round.winnings * round.weightOf square (p.ticket i)) Amount.productLimit
      with hlt | hle
    · cases (hdue hlt).symm.trans hpaid
      exact ⟨_, htotal⟩
    · cases (hover hle).symm.trans hpaid
  · rw [← Round.bonusBps_of_resolve hresolve] at hsmall
    exact ⟨_, _, hdue (hsold.mul_weightOf_lt ht haffords (Round.weightOf_le_four_mul hsmall)),
      htotal⟩

/-- A player of three who predicted the sum, at the settings that a house opens with. -/
theorem payable_threePlayers :
    ∃ paid amount, threePlayersDrawn.payout (threePlayers.ticket 1) = .ok paid ∧
      paid.total = .ok amount := by
  obtain ⟨square, -, -, -, hpaid⟩ := payable rfl threePlayers_resolve (by decide) 1
  exact hpaid (.inr (by decide))

/-! ## A winner who cannot be paid -/

/-- The highest bonus that may be in force. -/
def highestBonus : Settings Nat := { Settings.initial 0 with bonusBps := Settings.maxBonusBps }

/-- Two players stake about half of an amount each, on different squares, and one of them predicts
the sum of his square. -/
def twoWhales : Pool (Fin 2) Nat :=
  (opened 0 0 (fun i => i.val) 1 0 0).run
    [⟨0, 26, 9223372036854775807, 8⟩, ⟨1, 3, 9223372036854775808, 0⟩]

/-- The round that they staked on, resolved. -/
def twoWhalesDrawn : Round Nat := { twoWhales.round with
  seed := Bytes.fill32 7
  winner := some 26
  die1 := 5
  die2 := 3
  jackpotUnit := 4043526185178761212
  jackpot := 922337203685477580
  winnings := 8208801112800750470
  totalVaulted := 92233720368547758
  bonusBps := 100000 }

theorem twoWhales_resolve :
    twoWhales.round.resolve (Bytes.fill32 7) highestBonus
      = .ok (twoWhalesDrawn, { fee := 92233720368547758 }) := by
  have hid : twoWhales.round.id = 1 := by decide
  have hstaked : twoWhales.round.staked.get 26 = 9223372036854775807 := by decide
  have hunit : Draw.jackpot (Bytes.fill32 7) 1 9223372036854775807 = .ok 4043526185178761212 :=
    eq_ok_of_toOption (by decide +kernel)
  rw [Round.resolve_of_draws (hid ▸ square_sevens) (by rw [hid, hstaked]; exact hunit)
    (by rw [hstaked]; decide)]
  exact eq_ok_of_toOption (by decide)

/-- Settings may be in force under which the only winner of a pool that makes an amount is refused
for want of room. -/
theorem not_always_payable :
    highestBonus.validate = .ok highestBonus ∧
      twoWhales.round.resolve (Bytes.fill32 7) highestBonus
        = .ok (twoWhalesDrawn, { fee := 92233720368547758 }) ∧
      twoWhalesDrawn.totalStaked + twoWhalesDrawn.carryIn < Amount.limit ∧
      (twoWhales.ticket 0).total = 9223372036854775807 ∧
      twoWhalesDrawn.payout (twoWhales.ticket 0) = .error .overflow := by
  refine ⟨?_, twoWhales_resolve, by decide, by decide, ?_⟩
  · exact eq_ok_of_toOption (by decide)
  · have hsold : twoWhalesDrawn.Sold twoWhales.tickets :=
      (sold_run (sold_opened 0 0 _ 1 0 0) _).congr rfl rfl rfl
    have hwinner : twoWhalesDrawn.winner = some (Fin.val (26 : Square)) := rfl
    exact hsold.payout_of_le (Multiset.mem_map_of_mem _ (Finset.mem_univ_val 0)) hwinner
      (by decide)

end Pool

end DiceHouse
