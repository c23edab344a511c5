import DiceHouse.Proofs.Seat.ComeBets
import Mathlib.Algebra.Order.BigOperators.Group.Finset
import Mathlib.Algebra.Order.Group.Nat

/-!
# One fate for each wager

A wager that rides into a settlement ends, rides on or travels, and which of the three hangs on its
own verdict. So what a settlement does to the sums over a seat can be read off wager by wager: what
stays on the spot, what the share of the wager says and what leaves for another spot make up what
there was. `Ruled.balance` adds this up over all spots. Only stake on its way shows at two of them,
and what leaves the boxes is what arrives on the numbers, where the same roll has cleared all that
there was.

The stake at risk and the bankroll tied up are two instances. A seat need not be sound for them:
`Seat.Orderly` says nothing about reservations, since what ends without one is refused anyhow.
-/

namespace DiceHouse

namespace Tally

variable {n : Nat}

/-- What is added up in a tally is added up over a sum of tallies. -/
theorem sum_apply (part : Tally → Nat) (hzero : part 0 = 0)
    (hadd : ∀ a b, part (a + b) = part a + part b) (f : Fin n → Tally) :
    part (∑ i, f i) = ∑ i, part (f i) :=
  map_sum (⟨⟨part, hzero⟩, hadd⟩ : Tally →+ Nat) f Finset.univ

end Tally

namespace Spot

/-- A sum over the spots that a roll decides is one over all numbers, if nothing is on the seven
raced against itself. -/
theorem sum_order {M : Type} [AddCommMonoid M] (f : Spot → M) (hyes : f (.yes 7) = 0)
    (hno : f (.no 7) = 0) : (order.map f).sum = ∑ i, f (ofIndex i) := by
  have hevery : (every.map f).sum = ∑ i, f (ofIndex i) := by
    rw [← Fin.sum_univ_fun_getElem]
    exact Fintype.sum_equiv (finCongr length_every) _ _ fun i => rfl
  rw [← hevery, (every_perm.map f).sum_eq, List.map_cons, List.sum_cons, List.map_cons,
    List.sum_cons, hyes, hno, zero_add, zero_add]

/-- Spots that pay even odds at best tie up alike. -/
theorem tied_of_even {spot : Spot} (h : spot.worstOdds = .ok .even) (amount : Nat) :
    spot.tied amount = comeBox.tied amount := by
  unfold tied reserve
  rw [h]
  rfl

theorem point_of_index?_landing {box : Spot} {n : Nat} {i : Fin spotCount}
    (h : (box.landing n).index? = some i) : (Dice.pointIndex? n).isSome := by
  unfold landing at h
  split at h
  all_goals
    unfold index? block at h
    obtain ⟨j, hj, -⟩ := Option.map_eq_some_iff.mp h
    rw [hj]
    rfl

/-- The two boxes send their wagers to different spots. -/
theorem landing_inj {a b : Spot} {n m : Nat} (ha : a = comeBox ∨ a = dontComeBox)
    (hb : b = comeBox ∨ b = dontComeBox) (h : a.landing n = b.landing m) : a = b := by
  rcases ha with rfl | rfl <;> rcases hb with rfl | rfl
  · rfl
  · cases h
  · cases h
  · rfl

end Spot

namespace Verdict

variable {verdict : Verdict} {box : Spot}

/-- What a verdict takes off its spot without ending the wager, where it has this worth. -/
def leaving (worth : Nat) : Verdict → Nat
  | travel _ => worth
  | _ => 0

/-- What of it arrives on a spot. -/
def sends (worth : Nat) (box target : Spot) : Verdict → Nat
  | travel n => if box.landing n = target then worth else 0
  | _ => 0

/-- What leaves a spot arrives on one that there is. -/
theorem sum_sends (worth : Nat)
    (h : ∀ n, verdict = travel n → ∃ i, (box.landing n).index? = some i) :
    ∑ i, verdict.sends worth box (Spot.ofIndex i) = verdict.leaving worth := by
  cases verdict with
  | travel n =>
    obtain ⟨j, hj⟩ := h n rfl
    have hiff : ∀ i, box.landing n = Spot.ofIndex i ↔ j = i := by
      intro i
      rw [← Spot.ofIndex_of_index? hj]
      exact ⟨Spot.ofIndex_inj, congrArg _⟩
    simp only [sends, leaving, hiff]
    rw [Finset.sum_ite_eq, if_pos (Finset.mem_univ j)]
  | _ => exact Finset.sum_const_zero

end Verdict

namespace Seat

variable {κ : Type} {s t : Seat κ} {spot : Spot} {view : RollView} {tally : Tally}

theorem total_eq_sum_bet (measure : Spot → Wager → Nat) (s : Seat κ) :
    s.total measure = ∑ i, measure (Spot.ofIndex i) (s.bet (Spot.ofIndex i)) :=
  Finset.sum_congr rfl fun i _ => by rw [bet_ofIndex]

/-! ## Arrivals -/

/-- No wager arrives on the spot. -/
def Unvisited (s : Seat κ) (view : RollView) (spot : Spot) : Prop :=
  ∀ box n, s.ruling view box = .travel n → box.landing n ≠ spot

theorem unvisited_or_arrives (s : Seat κ) (view : RollView) (spot : Spot) :
    s.Unvisited view spot ∨ ∃ box n, s.ruling view box = .travel n ∧ box.landing n = spot := by
  by_cases hspot : s.Unvisited view spot
  · exact .inl hspot
  · unfold Unvisited at hspot
    push Not at hspot
    exact .inr hspot

/-- What arrives on a spot, where a wager that travels has this worth. -/
def arriving (s : Seat κ) (view : RollView) (worth : Nat → Nat) (spot : Spot) : Nat :=
  ∑ j, (s.ruling view (Spot.ofIndex j)).sends (worth (s.bet (Spot.ofIndex j)).amount)
    (Spot.ofIndex j) spot

theorem boxed_of_ruling {n : Nat} (h : s.ruling view spot = .travel n) :
    spot = .comeBox ∨ spot = .dontComeBox :=
  Spot.verdict_travel (travel_of_ruling h).2

theorem arriving_of_unvisited (worth : Nat → Nat) (h : s.Unvisited view spot) :
    s.arriving view worth spot = 0 := by
  refine Finset.sum_eq_zero fun j _ => ?_
  cases hruling : s.ruling view (Spot.ofIndex j) with
  | travel n => exact if_neg (h _ n hruling)
  | _ => rfl

/-- One wager at most arrives on a spot. -/
theorem arriving_of_travel (worth : Nat → Nat) {box : Spot} {n : Nat}
    (h : s.ruling view box = .travel n) :
    s.arriving view worth (box.landing n) = worth (s.bet box).amount := by
  obtain ⟨i, -, hi, -⟩ := wager_ok (wager_of_rides (travel_of_ruling h).1)
  unfold arriving
  rw [Finset.sum_eq_single i]
  · rw [hi, h]
    exact if_pos rfl
  · intro j _ hne
    cases hruling : s.ruling view (Spot.ofIndex j) with
    | travel m =>
      refine if_neg fun heq => hne (Spot.ofIndex_inj ?_)
      exact (Spot.landing_inj (boxed_of_ruling hruling) (boxed_of_ruling h) heq).trans hi.symm
    | _ => rfl
  · exact fun hc => absurd (Finset.mem_univ i) hc

/-! ## Balances -/

/-- A sum over the wagers of a seat, together with what a tally gives of it, stays from before a
settlement to after it, if each wager keeps it by itself: what is left of a wager, what its share
gives, and what it takes to another spot. -/
theorem Ruled.balance (h : s.Ruled view t tally) (measure : Spot → Wager → Nat)
    (gives takes : Tally → Nat) (worth : Nat → Nat)
    (hgives : ∑ i, gives (s.share view (Spot.ofIndex i)) = gives tally)
    (htakes : ∑ i, takes (s.share view (Spot.ofIndex i)) = takes tally)
    (hlands : ∀ box n, s.ruling view box = .travel n → ∃ i, (box.landing n).index? = some i)
    (hspot : ∀ spot, measure spot ((s.ruling view spot).leaves (s.bet spot))
        + gives (s.share view spot) + (s.ruling view spot).leaving (worth (s.bet spot).amount)
      = measure spot (s.bet spot) + takes (s.share view spot))
    (harrived : ∀ box n, s.ruling view box = .travel n →
      measure (box.landing n) (.arrived (s.bet box).amount) = worth (s.bet box).amount ∧
        measure (box.landing n)
          ((s.ruling view (box.landing n)).leaves (s.bet (box.landing n))) = 0) :
    t.total measure + gives tally = s.total measure + takes tally := by
  -- spot by spot there is what the ruling left, and what arrives
  have hafter : ∀ spot, measure spot (t.bet spot)
      = measure spot ((s.ruling view spot).leaves (s.bet spot)) + s.arriving view worth spot := by
    intro spot
    rcases s.unvisited_or_arrives view spot with hspot | ⟨box, n, hn, rfl⟩
    · rw [h.stays spot hspot, arriving_of_unvisited worth hspot, Nat.add_zero]
    · obtain ⟨hworth, hfree⟩ := harrived box n hn
      rw [h.arrives box n hn, arriving_of_travel worth hn, hworth, hfree, Nat.zero_add]
  -- over all spots, what arrives is what left
  have hmoved : ∑ i, s.arriving view worth (Spot.ofIndex i)
      = ∑ j, (s.ruling view (Spot.ofIndex j)).leaving (worth (s.bet (Spot.ofIndex j)).amount) := by
    unfold arriving
    rw [Finset.sum_comm]
    exact Finset.sum_congr rfl fun j _ => Verdict.sum_sends _ (hlands (Spot.ofIndex j))
  have hsum := Finset.sum_congr rfl fun i (_ : i ∈ Finset.univ) => hspot (Spot.ofIndex i)
  simp only [Finset.sum_add_distrib] at hsum
  rw [hgives, htakes, ← hmoved] at hsum
  rw [total_eq_sum_bet, total_eq_sum_bet, ← hsum, Finset.sum_congr rfl fun i _ => hafter _,
    Finset.sum_add_distrib]
  omega

/-- Stake that rides is credited, lost or pushed, or it stays or leaves. -/
theorem stake_of_ruling (s : Seat κ) (view : RollView) (spot : Spot) :
    ((s.ruling view spot).leaves (s.bet spot)).atRisk
        + ((s.share view spot).lost + (s.share view spot).credited)
        + (s.ruling view spot).leaving (s.bet spot).amount
      = (s.bet spot).atRisk + (s.share view spot).profit := by
  unfold share
  cases hruling : s.ruling view spot with
  | carry =>
    show (s.bet spot).carry.atRisk + (0 + 0) + 0 = (s.bet spot).atRisk + 0
    rw [Wager.atRisk_carry]
  | win odds | lose | push =>
    obtain ⟨hr, -⟩ := verdict_of_ruling hruling (by simp)
    simp only [Verdict.leaves, Verdict.tally, Verdict.leaving, Wager.atRisk_cleared,
      Wager.atRisk_of_rides hr]
    omega
  | travel n =>
    show 0 + (0 + 0) + (s.bet spot).amount = (s.bet spot).atRisk + 0
    rw [Wager.atRisk_of_rides (travel_of_ruling hruling).1]
    omega

/-- What a wager ties up is released when it ends, and goes with it when it travels. -/
theorem tied_of_ruling (s : Seat κ) (view : RollView) (spot : Spot) :
    spot.tied ((s.ruling view spot).leaves (s.bet spot)).atRisk + (s.share view spot).released
        + (s.ruling view spot).leaving (Spot.comeBox.tied (s.bet spot).amount)
      = spot.tied (s.bet spot).atRisk := by
  unfold share
  cases hruling : s.ruling view spot with
  | carry =>
    show spot.tied (s.bet spot).carry.atRisk + 0 + 0 = spot.tied (s.bet spot).atRisk
    rw [Wager.atRisk_carry, Nat.add_zero]
  | win odds | lose | push =>
    obtain ⟨hr, -⟩ := verdict_of_ruling hruling (by simp)
    simp only [Verdict.leaves, Verdict.tally, Verdict.leaving, Wager.atRisk_cleared,
      Wager.atRisk_of_rides hr, Spot.tied_zero]
    omega
  | travel n =>
    have heven : spot.worstOdds = .ok .even := by
      rcases boxed_of_ruling hruling with rfl | rfl <;> rfl
    show spot.tied (Wager.cleared .none).atRisk + 0 + Spot.comeBox.tied (s.bet spot).amount = _
    rw [Wager.atRisk_cleared, Spot.tied_zero, Wager.atRisk_of_rides (travel_of_ruling hruling).1,
      Spot.tied_of_even heven, Nat.zero_add]

theorem profit_le_credited (s : Seat κ) (view : RollView) (spot : Spot) :
    (s.share view spot).profit ≤ (s.share view spot).credited := by
  unfold share
  cases s.ruling view spot with
  | win odds => exact Nat.le_add_left _ _
  | lose | push | carry | travel n => exact Nat.zero_le _

section Settled

variable (hset : s.Settleable view tally)
include hset

/-- What ends gives back what was reserved for it. -/
theorem Settleable.reserved {e : WagerEnding} (h : (s.ruling view spot).ending? = some e) :
    spot.reserve (s.bet spot).amount = .ok (spot.tied (s.bet spot).amount) := by
  have hne : s.ruling view spot ≠ .carry := by
    intro hc
    rw [hc] at h
    cases h
  have htold := hset.told spot (verdict_of_ruling rfl hne).1
  cases hruling : s.ruling view spot with
  | win odds =>
    rw [hruling] at htold
    obtain ⟨-, worst, hworst⟩ := htold
    rw [hworst, Spot.tied_of_reserve hworst]
  | lose | push =>
    rw [hruling] at htold
    obtain ⟨worst, hworst⟩ := htold
    rw [hworst, Spot.tied_of_reserve hworst]
  | carry | travel n =>
    rw [hruling] at h
    cases h

/-- No wager wins more than what was reserved for it. -/
theorem Settleable.profit_le (spot : Spot) :
    (s.share view spot).profit ≤ (s.share view spot).released := by
  unfold share
  cases hruling : s.ruling view spot with
  | win odds =>
    obtain ⟨-, hv⟩ := verdict_of_ruling hruling (by simp)
    have hreserved := hset.reserved (congrArg Verdict.ending? hruling)
    obtain ⟨worst, hworst, -, -, htied⟩ := Spot.reserve_eq_ok_iff.mp hreserved
    show odds.gain (s.bet spot).amount ≤ spot.tied (s.bet spot).amount
    rw [htied]
    exact Odds.gain_le_gain (Spot.verdict_win_atMost hv hworst) _
  | lose | push => exact Nat.zero_le _
  | carry | travel n => exact Nat.le_refl 0

end Settled

/-- The shares of the spots that a roll decides are all shares. -/
theorem Orderly.sum_share (hs : s.Orderly) (view : RollView) :
    (Spot.order.map (s.share view)).sum = ∑ i, s.share view (Spot.ofIndex i) := by
  refine Spot.sum_order _ (share_of_not_rides ?_) (share_of_not_rides ?_)
  · rw [← rides_eq, hs.yes]
  · rw [← rides_eq, hs.no]

/-! ## Fates -/

/-- What became of a wager that rode, under the verdict on it. -/
inductive Fate (s t : Seat κ) (view : RollView) (spot : Spot) : Verdict → Prop where
  /-- It ended, and its place is cleared or was taken by a wager that arrived. -/
  | ended {verdict : Verdict} (e : WagerEnding) (hends : verdict.ending? = some e)
    (hplace : t.bet spot = .cleared e ∨ ∃ box n, s.ruling view box = .travel n ∧
      box.landing n = spot ∧ t.bet spot = .arrived (s.bet box).amount) : Fate s t view spot verdict
  /-- It rides on. -/
  | carried (hplace : t.bet spot = (s.bet spot).carry) : Fate s t view spot .carry
  /-- It left its box, and all of it is what is now on the number that was rolled; if anything rode
  there, that has ended. -/
  | travelled (n : Nat) (hbox : spot = .comeBox ∨ spot = .dontComeBox)
    (hnumber : (Dice.pointIndex? n).isSome) (hplace : t.bet spot = .cleared .none)
    (harrived : t.bet (spot.landing n) = .arrived (s.bet spot).amount)
    (hfreed : (s.bet (spot.landing n)).rides = true →
      ∃ e, (s.ruling view (spot.landing n)).ending? = some e) : Fate s t view spot (.travel n)

/-- Nothing arrives where a roll leaves a wager open. -/
theorem unvisited_of_ruling (hopen : (s.ruling view spot).ending? = none)
    (hr : (s.bet spot).rides = true) : s.Unvisited view spot := by
  rintro box n hn rfl
  rcases Spot.verdict_landing (travel_of_ruling hn).2 with hv | hv
  · rw [ruling_of_verdict hr hv] at hopen
    cases hopen
  · rw [ruling_of_verdict hr hv] at hopen
    cases hopen

theorem Ruled.fate (h : s.Ruled view t tally) (hset : s.Settleable view tally)
    (hr : (s.bet spot).rides = true) : s.Fate t view spot (s.ruling view spot) := by
  cases hruling : s.ruling view spot with
  | win odds | lose | push =>
    refine .ended _ rfl ?_
    rcases s.unvisited_or_arrives view spot with hspot | ⟨box, n, hn, rfl⟩
    · have hplace := h.stays spot hspot
      rw [hruling] at hplace
      exact .inl hplace
    · exact .inr ⟨box, n, hn, rfl, h.arrives box n hn⟩
  | carry =>
    have hplace := h.stays spot (unvisited_of_ruling (congrArg Verdict.ending? hruling) hr)
    rw [hruling] at hplace
    exact .carried hplace
  | travel n =>
    have hplace := h.stays spot (unvisited_of_ruling (congrArg Verdict.ending? hruling) hr)
    rw [hruling] at hplace
    obtain ⟨⟨i, hi⟩, -⟩ := hset.lands spot n hruling
    refine .travelled n (boxed_of_ruling hruling) (Spot.point_of_index?_landing hi) hplace
      (h.arrives spot n hruling) fun hrides => ?_
    cases hends : (s.ruling view (spot.landing n)).ending? with
    | some e => exact ⟨e, rfl⟩
    | none => exact absurd rfl (unvisited_of_ruling hends hrides spot n hruling)

/-! ## The whole settlement -/

section Sums

variable (hs : s.Orderly) (hruled : s.Ruled view t tally) (hset : s.Settleable view tally)
include hs hset

/-- What the shares add up to is in the tally. -/
theorem Settleable.sum_part (part : Tally → Nat) (hzero : part 0 = 0)
    (hadd : ∀ a b, part (a + b) = part a + part b) :
    ∑ i, part (s.share view (Spot.ofIndex i)) = part tally := by
  rw [hset.sum, hs.sum_share, Tally.sum_apply part hzero hadd]

theorem Settleable.profit_le_released_sum : tally.profit ≤ tally.released := by
  rw [← hset.sum_part hs Tally.profit rfl fun _ _ => rfl,
    ← hset.sum_part hs Tally.released rfl fun _ _ => rfl]
  exact Finset.sum_le_sum fun i _ => hset.profit_le (Spot.ofIndex i)

theorem Settleable.profit_le_credited_sum : tally.profit ≤ tally.credited := by
  rw [← hset.sum_part hs Tally.profit rfl fun _ _ => rfl,
    ← hset.sum_part hs Tally.credited rfl fun _ _ => rfl]
  exact Finset.sum_le_sum fun i _ => s.profit_le_credited view (Spot.ofIndex i)

include hruled

/-- The stake that rode rides on, was lost or was credited, the last with the profit. -/
theorem Ruled.stakes_eq : t.stakes + (tally.lost + tally.credited) = s.stakes + tally.profit := by
  have hgiven : ∑ i, ((s.share view (Spot.ofIndex i)).lost
      + (s.share view (Spot.ofIndex i)).credited) = tally.lost + tally.credited := by
    rw [Finset.sum_add_distrib, hset.sum_part hs Tally.lost rfl fun _ _ => rfl,
      hset.sum_part hs Tally.credited rfl fun _ _ => rfl]
  refine hruled.balance (fun _ w => w.atRisk) (fun t => t.lost + t.credited) Tally.profit id
    hgiven (hset.sum_part hs Tally.profit rfl fun _ _ => rfl)
    (fun box n hn => (hset.lands box n hn).1) (s.stake_of_ruling view) fun box n hn => ⟨?_, ?_⟩
  · exact Wager.atRisk_of_rides (Wager.rides_arrived (Wager.pos_of_rides (travel_of_ruling hn).1))
  · exact Wager.atRisk_of_not_rides (hs.free hn).1

/-- What the riding wagers tied up they tie up still, or it was released. -/
theorem Ruled.exposure_eq : t.exposure + tally.released = s.exposure := by
  rw [← Nat.add_zero s.exposure]
  refine hruled.balance (fun spot w => spot.tied w.atRisk) Tally.released (fun _ => 0)
    Spot.comeBox.tied (hset.sum_part hs Tally.released rfl fun _ _ => rfl) Finset.sum_const_zero
    (fun box n hn => (hset.lands box n hn).1) (s.tied_of_ruling view) fun box n hn => ⟨?_, ?_⟩
  · have hpos := Wager.pos_of_rides (travel_of_ruling hn).1
    rw [Wager.atRisk_of_rides (Wager.rides_arrived hpos)]
    exact Spot.tied_of_even (Spot.worstOdds_landing box n) _
  · rw [Wager.atRisk_of_not_rides (hs.free hn).1, Spot.tied_zero]

end Sums

/-- All that a settlement does with the wagers of a seat. -/
structure Accounted (s : Seat κ) (view : RollView) (t : Seat κ) (tally : Tally) : Prop where
  /-- Each wager that rode has a verdict, and the fate that goes with it. -/
  fate : ∀ spot, (s.bet spot).rides = true →
    spot.verdict view = .ok (s.ruling view spot) ∧ s.Fate t view spot (s.ruling view spot)
  /-- Every other wager is untouched, but where one arrives. -/
  idle : ∀ spot, (s.bet spot).rides = false → s.Unvisited view spot → t.bet spot = s.bet spot
  /-- Every wager is counted once, with what its verdict says. -/
  counted : tally = ∑ i, (s.ruling view (Spot.ofIndex i)).tally (Spot.ofIndex i)
    (s.bet (Spot.ofIndex i)).amount
  /-- What is counted as released is what the spot reserves for such a wager. -/
  reserved : ∀ spot e, (s.ruling view spot).ending? = some e →
    spot.reserve (s.bet spot).amount = .ok (spot.tied (s.bet spot).amount)
  stakes : s.stakes + tally.profit = t.stakes + tally.lost + tally.credited
  atRisk : ∀ n, s.atRisk = .ok n →
    ∃ m, t.atRisk = .ok m ∧ n = m + tally.lost + tally.credited - tally.profit
  exposure : s.exposure = t.exposure + tally.released
  covered : tally.profit ≤ tally.released
  booked : s.Credited tally t

variable {phase : Phase} {roll : Roll} {fieldTriple : Bool}

/-- One settlement gives every wager one fate and loses nothing. Take a seat where only what rides
holds stake and the seven is not raced against itself, in any phase, on any roll and under both
rules for the field. Each wager that rides ends, rides on with its stake, or travels with all of it
from its box to a number on which nothing is left; the others stay as they are. The tally counts
each wager once. The stake that rides and what it ties up change by exactly what the tally says, the
profit is within what is released, and the totals of the seat grow by the tally. -/
theorem settle_accounted (hs : s.Orderly) (h : s.settle phase roll fieldTriple = .ok (t, tally)) :
    ∃ view, s.seen phase roll fieldTriple = .ok view ∧ s.Accounted view t tally := by
  obtain ⟨view, hseen, hruled⟩ := settleAlong_ruled hs (.refl _) h
  obtain ⟨view', hseen', hset⟩ := settleable_of_settleAlong hs (.refl _) h
  cases hseen.symm.trans hseen'
  have hstakes := hruled.stakes_eq hs hset
  have hpaid := hset.profit_le_credited_sum hs
  refine ⟨view, hseen, ?_⟩
  constructor
  case fate => exact fun spot hr => ⟨hruled.decided spot hr, hruled.fate hset hr⟩
  case idle =>
    intro spot hr hspot
    rw [hruled.stays spot hspot, leaves_of_not_rides hr]
  case counted => exact hset.sum.trans (hs.sum_share view)
  case reserved => exact fun spot e => hset.reserved
  case stakes => omega
  case atRisk =>
    intro n hn
    obtain ⟨hlt, heq⟩ := atRisk_eq_ok_iff.mp hn
    exact ⟨t.stakes, atRisk_eq_ok_iff.mpr ⟨by omega, rfl⟩, by omega⟩
  case exposure => exact (hruled.exposure_eq hs hset).symm
  case covered => exact hset.profit_le_released_sum hs
  case booked => exact settle_credited h

/-- A line bet, a field bet, and two come bets: one on the five and one in the box. -/
def crowded : Seat Unit := { blank () with
  wagers := Vector.ofFn fun i =>
    if Spot.ofIndex i = .passLine then ⟨50, 2, 0⟩
    else if Spot.ofIndex i = .field then ⟨10, 1, 0⟩
    else if Spot.ofIndex i = .come 5 then ⟨200, 2, 0⟩
    else if Spot.ofIndex i = .comeBox then ⟨100, 1, 0⟩
    else .blank }

theorem orderly_crowded : crowded.Orderly := by
  constructor <;> decide +kernel

/-- A five pays the come bet that is on it, and another takes its place. -/
theorem settle_accounted_crowded :
    ∃ view t tally, crowded.settle (.point 6) ⟨3, 1, 4⟩ false = .ok (t, tally) ∧
      crowded.Accounted view t tally ∧ t.bet (.come 5) = .arrived 100 ∧
      tally = { credited := 400, profit := 200, lost := 10, released := 230, resolved := 2 } := by
  have heval : ((crowded.settle (.point 6) ⟨3, 1, 4⟩ false).toOption.map fun r =>
      (r.1.bet (.come 5), r.2)) = some (.arrived 100,
        { credited := 400, profit := 200, lost := 10, released := 230, resolved := 2 }) := by
    decide +kernel
  obtain ⟨⟨t, tally⟩, hrun, hresult⟩ := Option.map_eq_some_iff.mp heval
  obtain ⟨hfive, htally⟩ := Prod.mk.inj hresult
  obtain ⟨view, -, haccounted⟩ := settle_accounted orderly_crowded (eq_ok_of_toOption hrun)
  exact ⟨view, t, tally, eq_ok_of_toOption hrun, haccounted, hfive, htally⟩

end Seat

end DiceHouse
