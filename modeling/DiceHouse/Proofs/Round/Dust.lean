import DiceHouse.Proofs.Round.Payable
import DiceHouse.Proofs.Round.Split
import DiceHouse.Proofs.Round.Tally
import Mathlib.Algebra.Order.Field.Rat
import Mathlib.Data.Rat.Cast.Order
import Mathlib.Tactic.Linarith

/-!
# What is left of the winnings

Every quotient is rounded down, so the shares do not use up the winnings, and nobody can claim what
is left. It is little. There are three layers of rounding: a ticket's weight, the weight of the
square, and the share. The square weighs more than its tickets, by less than one for each right
prediction; as the square's own weight is rounded down too, one of them costs nothing. What the
tickets do not weigh is a part of the winnings that no share is of. And each share loses less than
one on its own.

If the bonus is a whole multiple no weight is rounded, and only the shares are.
-/

namespace DiceHouse

/-- One less, where subtraction stops at zero. -/
theorem cast_sub_one (n : Nat) : ((n - 1 : Nat) : ℚ) = max ((n : ℚ) - 1) 0 := by
  cases n with
  | zero => simp
  | succ n => simp

/-- A bound on what is left of a whole, from one on a multiple of the whole. -/
theorem sub_lt_of_mul_lt {whole handed count lost weight : Nat} (hweight : 0 < weight)
    (h : whole * weight < (handed + count) * weight + whole * lost) :
    (whole : ℚ) - handed < count + whole * lost / weight := by
  have hpos : (0 : ℚ) < weight := Nat.cast_pos.mpr hweight
  have hcast : (whole : ℚ) * weight < (handed + count) * weight + whole * lost := by
    exact_mod_cast h
  rw [← sub_lt_iff_lt_add', lt_div_iff₀ hpos]
  linarith only [hcast]

namespace Round

variable {κ ν : Type} {r : Round κ} {square : Square} {tickets : Multiset (Ticket ν)}
  {t : Ticket ν}

/-! ## What a square weighs above its tickets -/

/-- A ticket weighs its stake and, if it is right, the bonus part of it. -/
theorem weightOf_eq (hbonus : Settings.wholeBps ≤ r.bonusBps) :
    r.weightOf square t = t.staked.get square
      + t.rightStake square * (r.bonusBps - Settings.wholeBps) / Settings.wholeBps := by
  unfold weightOf weight Ticket.rightStake
  by_cases hright : t.prediction = (Roll.ofSquare square).sum
  · have hparts : t.staked.get square * r.bonusBps = t.staked.get square * Settings.wholeBps
        + t.staked.get square * (r.bonusBps - Settings.wholeBps) := by
      rw [← Nat.mul_add, Nat.add_sub_cancel' hbonus]
    rw [if_pos (decide_eq_true hright), if_pos hright, hparts, Nat.add_comm,
      Nat.add_mul_div_right _ _ (by decide), Nat.add_comm]
  · rw [if_neg (by simpa using hright), if_neg hright, Nat.zero_mul, Nat.zero_div, Nat.add_zero]

theorem weightOf_pos_iff (hbonus : Settings.wholeBps ≤ r.bonusBps) :
    0 < r.weightOf square t ↔ 0 < t.staked.get square := by
  constructor
  · intro hweight
    by_contra hzero
    exact hweight.ne' (weightOf_of_zero (Nat.eq_zero_of_not_pos hzero))
  · intro hstaked
    rw [weightOf_eq hbonus]
    exact Nat.add_pos_left hstaked _

theorem Sold.sum_weightOf (h : Sold r tickets) (hbonus : Settings.wholeBps ≤ r.bonusBps) :
    (tickets.map (r.weightOf square)).sum = r.staked.get square
      + (tickets.map fun t => t.rightStake square * (r.bonusBps - Settings.wholeBps)
          / Settings.wholeBps).sum := by
  rw [Multiset.map_congr rfl fun t _ => weightOf_eq hbonus, Multiset.sum_map_add,
    ← h.staked square]

/-- The square weighs more than its tickets, by less than one for each right prediction. -/
theorem Sold.totalWeight_le (h : Sold r tickets) (hbonus : Settings.wholeBps ≤ r.bonusBps) :
    r.totalWeight square ≤ (tickets.map (r.weightOf square)).sum
      + (tickets.countP (fun t => 0 < t.rightStake square) - 1) := by
  unfold totalWeight
  rw [h.sum_weightOf hbonus, h.predicted square, Nat.add_assoc]
  exact Nat.add_le_add_left (sum_mul_div_le_sum_add tickets _ _ (by decide)) _

/-- Under a whole multiple the square weighs what its tickets do. -/
theorem Sold.totalWeight_of_dvd (h : Sold r tickets) (hbonus : Settings.wholeBps ≤ r.bonusBps)
    (hwhole : Settings.wholeBps ∣ r.bonusBps) :
    r.totalWeight square = (tickets.map (r.weightOf square)).sum := by
  unfold totalWeight
  rw [h.sum_weightOf hbonus, h.predicted square,
    sum_mul_div_of_dvd tickets _ (Nat.dvd_sub hwhole (Nat.dvd_refl _))]

/-! ## What the shares leave -/

/-- The winnings are shared out up to less than one for each ticket, and the part for which no
ticket weighs anything. -/
theorem Sold.winnings_mul_lt (h : Sold r tickets) (hbonus : Settings.wholeBps ≤ r.bonusBps)
    {lost : Nat} (hlost : r.totalWeight square ≤ (tickets.map (r.weightOf square)).sum + lost)
    (hsome : 0 < tickets.countP fun t => 0 < t.staked.get square) :
    r.winnings * r.totalWeight square
      < ((tickets.map fun t => (r.due square t).share).sum
          + tickets.countP fun t => 0 < t.staked.get square) * r.totalWeight square
        + r.winnings * lost := by
  have hweighed : 0 < r.totalWeight square :=
    hsome.trans_le ((h.countP_le square).trans (Nat.le_add_right _ _))
  have hshare : (tickets.map fun t => (r.due square t).share).sum
      = (tickets.map fun t => r.weightOf square t * r.winnings / r.totalWeight square).sum := by
    refine congrArg Multiset.sum (Multiset.map_congr rfl fun t _ => ?_)
    rw [Nat.mul_comm]
    rfl
  have hcount : tickets.countP (fun t => 0 < t.staked.get square)
      = tickets.countP fun t => 0 < r.weightOf square t :=
    Multiset.countP_congr rfl fun t _ => propext (weightOf_pos_iff hbonus).symm
  rw [hcount] at hsome ⊢
  rw [hshare]
  calc r.winnings * r.totalWeight square
      ≤ r.winnings * ((tickets.map (r.weightOf square)).sum + lost) := Nat.mul_le_mul_left _ hlost
    _ = (tickets.map (r.weightOf square)).sum * r.winnings + r.winnings * lost := by
        rw [Nat.mul_add, Nat.mul_comm r.winnings]
    _ < (tickets.map (r.weightOf square)).sum * r.winnings
          + tickets.countP (fun t => 0 < r.weightOf square t) + r.winnings * lost :=
        Nat.add_lt_add_right (Nat.lt_add_of_pos_right hsome) _
    _ ≤ _ := Nat.add_le_add_right (sum_mul_add_countP_le tickets _ _ hweighed) _

end Round

namespace Pool

variable {ι κ ν : Type} [Fintype ι]

/-- The players who staked on a square. -/
def holders (p : Pool ι κ) (square : Square) : Finset ι :=
  Finset.univ.filter fun i => 0 < (p.ticket i).staked.get square

/-- Those of them who predicted its sum. -/
def foretellers (p : Pool ι κ) (square : Square) : Finset ι :=
  (p.holders square).filter fun i => (p.ticket i).prediction = (Roll.ofSquare square).sum

theorem countP_staked (p : Pool ι κ) (square : Square) :
    p.tickets.countP (fun t => 0 < t.staked.get square) = (p.holders square).card := by
  rw [tickets, Multiset.countP_map]
  rfl

theorem countP_rightStake (p : Pool ι κ) (square : Square) :
    p.tickets.countP (fun t => 0 < t.rightStake square) = (p.foretellers square).card := by
  have hright : p.foretellers square
      = Finset.univ.filter fun i => 0 < (p.ticket i).rightStake square := by
    rw [foretellers, holders, Finset.filter_filter]
    refine Finset.filter_congr fun i _ => ?_
    unfold Ticket.rightStake
    split
    · next hp => exact and_iff_left hp
    · next hp => exact ⟨fun h => absurd h.2 hp, fun h => absurd h (Nat.lt_irrefl 0)⟩
  rw [hright, tickets, Multiset.countP_map]
  rfl

/-- Only those on the square have a share. -/
theorem sum_share (p : Pool ι κ) (round : Round κ) (square : Square) :
    (p.tickets.map fun t => (round.due square t).share).sum
      = ∑ i ∈ p.holders square, (round.due square (p.ticket i)).share := by
  rw [sum_tickets]
  refine (Finset.sum_filter_of_ne fun i _ hshare => ?_).symm
  refine Nat.pos_of_ne_zero fun hzero => hshare ?_
  rw [Round.due_of_zero hzero]

/-- The winnings are handed out up to a bounded rest. Of a pool that was opened, staked on and
resolved under settings that may be in force, let some players hold stake on the winning square, and
let every one of them be told what is theirs. Then their shares are within the winnings, and what
these leave is less than one for each of them, and as large a part of the winnings as all right
predictions but one, at a weight of one each, are of the square's weight. If the bonus is a whole
multiple, it is less than one for each of them. -/
theorem dust_bounded [DecidableEq ι] {nobody rentPayer : κ} {owner : ι → κ}
    {id carryIn expiresAt : Nat} {orders : List (Order ι)} {p : Pool ι κ} {seed : Bytes32}
    {settings : Settings ν} {round : Round κ} {split : Split} {square : Square}
    {paid : ι → Payout}
    (hp : p = (opened nobody rentPayer owner id carryIn expiresAt).run orders)
    (hsettings : settings.InForce)
    (hresolve : p.round.resolve seed settings = .ok (round, split))
    (hsquare : round.winningSquare = .ok square) (hsome : (p.holders square).Nonempty)
    (hpaid : ∀ i ∈ p.holders square, round.payout (p.ticket i) = .ok (paid i)) :
    ∑ i ∈ p.holders square, (paid i).share ≤ round.winnings ∧
      (round.winnings : ℚ) - ∑ i ∈ p.holders square, ((paid i).share : ℚ)
        < (p.holders square).card
          + round.winnings * max ((p.foretellers square).card - 1 : ℚ) 0
            / round.totalWeight square ∧
      (Settings.wholeBps ∣ settings.bonusBps →
        round.winnings - ∑ i ∈ p.holders square, (paid i).share < (p.holders square).card) := by
  obtain ⟨w, hdrawn⟩ : ∃ w, Round.Drawn p.round round split w := Round.resolve_ok hresolve
  obtain rfl : square = w :=
    Except.ok.inj (hsquare.symm.trans (Round.winningSquare_eq hdrawn.winner))
  have hsold : round.Sold p.tickets := by
    have hsold : p.round.Sold p.tickets := by
      rw [hp]
      exact sold_run (sold_opened nobody rentPayer owner id carryIn expiresAt) orders
    exact hsold.congr hdrawn.staked hdrawn.predicted hdrawn.totalStaked
  have hwritten : round.bonusBps = settings.bonusBps := Round.bonusBps_of_resolve hresolve
  have hbonus : Settings.wholeBps ≤ round.bonusBps := by
    obtain ⟨-, hbonus, -⟩ := hsettings.sound
    exact hwritten ▸ hbonus
  have hcount : 0 < p.tickets.countP fun t => 0 < t.staked.get square := by
    rw [countP_staked]
    exact hsome.card_pos
  have hstaked : 0 < round.staked.get square := hcount.trans_le (hsold.countP_le square)
  have hshares : ∑ i ∈ p.holders square, (paid i).share
      = (p.tickets.map fun t => (round.due square t).share).sum := by
    rw [sum_share]
    refine Finset.sum_congr rfl fun i hi => ?_
    rw [Round.payout_ok hdrawn.winner hstaked.ne' (hpaid i hi)]
  have hwithin : ∑ i ∈ p.holders square, (paid i).share ≤ round.winnings := by
    rw [hshares]
    exact hsold.sum_share_le square
  refine ⟨hwithin, ?_, fun hwhole => ?_⟩
  · have hlt := hsold.winnings_mul_lt hbonus (hsold.totalWeight_le hbonus) hcount
    rw [← hshares, countP_staked, countP_rightStake] at hlt
    have hweight : 0 < round.totalWeight square := hstaked.trans_le (Nat.le_add_right _ _)
    rw [← cast_sub_one, ← Nat.cast_sum]
    exact sub_lt_of_mul_lt hweight hlt
  · have hexact : round.totalWeight square ≤ (p.tickets.map (round.weightOf square)).sum + 0 :=
      (hsold.totalWeight_of_dvd hbonus (hwritten ▸ hwhole)).le
    have hlt := hsold.winnings_mul_lt hbonus hexact hcount
    rw [Nat.mul_zero, Nat.add_zero, ← hshares, countP_staked] at hlt
    have hrest := Nat.lt_of_mul_lt_mul_right hlt
    omega

/-! ## Weights that are rounded down -/

/-- A bonus of half the stake. -/
def halfBonus : Settings Nat := { Settings.initial 0 with bonusBps := 15000 }

/-- Two players predict the sum of their square with an odd stake each, and win what three others
lose. -/
def twoOdd : Pool (Fin 5) Nat :=
  (opened 0 0 (fun i => i.val) 1 0 1000).run
    [⟨0, 26, 75, 8⟩, ⟨1, 26, 75, 8⟩, ⟨2, 3, 500, 0⟩, ⟨3, 4, 300, 0⟩, ⟨4, 5, 200, 0⟩]

/-- The round that they staked on, resolved. -/
def twoOddDrawn : Round Nat := { twoOdd.round with
  seed := Bytes.fill32 7
  winner := some 26
  die1 := 5
  die2 := 3
  jackpotUnit := 119
  jackpot := 100
  winnings := 890
  totalVaulted := 10
  bonusBps := 15000 }

/-- What each of them gets. -/
def twoOddPaid : Fin 5 → Payout := ![⟨75, 443, 0⟩, ⟨75, 443, 100⟩, {}, {}, {}]

theorem twoOdd_resolve :
    twoOdd.round.resolve (Bytes.fill32 7) halfBonus = .ok (twoOddDrawn, { fee := 10 }) := by
  have hid : twoOdd.round.id = 1 := by decide
  have hstaked : twoOdd.round.staked.get 26 = 150 := by decide
  rw [Round.resolve_of_draws (hid ▸ square_sevens) (by rw [hid, hstaked]; exact jackpot_sevens)
    (by rw [hstaked]; decide)]
  exact eq_ok_of_toOption (by decide)

theorem twoOdd_payout :
    ∀ i, twoOddDrawn.payout (twoOdd.ticket i) = .ok (twoOddPaid i) := by
  intro i
  refine eq_ok_of_toOption ?_
  revert i
  decide

/-- Each of the two weighs 112 and a half, rounded down, and their square weighs 225. So four of the
winnings are nobody's, where rounding the two shares alone would leave at most one. -/
theorem dust_bounded_twoOdd :
    ∑ i ∈ twoOdd.holders 26, (twoOddPaid i).share = 886 ∧
      (890 : ℚ) - 886 < 2 + 890 * max (2 - 1) 0 / 225 := by
  have haccepted : halfBonus.validate = .ok halfBonus := eq_ok_of_toOption (by decide)
  have hholders : twoOdd.holders 26 = {0, 1} := by decide
  have hforetellers : twoOdd.foretellers 26 = {0, 1} := by decide
  have hweight : twoOddDrawn.totalWeight 26 = 225 := by decide
  have hplayed : twoOdd = (opened 0 0 (fun i => i.val) 1 0 1000).run
      [⟨0, 26, 75, 8⟩, ⟨1, 26, 75, 8⟩, ⟨2, 3, 500, 0⟩, ⟨3, 4, 300, 0⟩, ⟨4, 5, 200, 0⟩] := rfl
  have hsquare : twoOddDrawn.winningSquare = .ok 26 := rfl
  have hwinnings : twoOddDrawn.winnings = 890 := rfl
  obtain ⟨-, hrest, -⟩ := dust_bounded hplayed (.update (.initial 0) haccepted) twoOdd_resolve
    hsquare (by rw [hholders]; exact Finset.insert_nonempty 0 {1}) fun i _ => twoOdd_payout i
  have hshares : ∑ i ∈ twoOdd.holders 26, (twoOddPaid i).share = 886 := by
    rw [hholders]
    rfl
  refine ⟨hshares, ?_⟩
  rw [← Nat.cast_sum, hshares, hholders, hforetellers, hweight, hwinnings,
    Finset.card_pair (by decide)] at hrest
  exact_mod_cast hrest

end Pool

end DiceHouse
