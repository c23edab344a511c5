import DiceHouse.Proofs.Seat.Settle
import DiceHouse.Table

/-!
# A settlement is never refused

As long as the stake at a sound seat and what it ties up are an amount together, every roll decides
all of its wagers: each has a verdict, the spots to which wagers travel exist, and no sum on the way
is too large. For what the tally gains of a wager is bounded by what the seat had at risk and tied
up, and `Proceeding`, which the walk over the spots keeps, says so. Only the booking that comes last
can be refused, because the totals of the seat have no bound.
-/

namespace DiceHouse

/-! ## Tallies with room -/

namespace Tally

variable {t t' : Tally} {spot : Spot} {amount worst : Nat} {odds : Odds}

/-- What was credited has in it the profit and the stake that was returned undecided. -/
def Balanced (t : Tally) : Prop := t.pushed + t.profit ≤ t.credited

theorem win_of_lt (hworst : spot.reserve amount = .ok worst) (hden : odds.den ≠ 0)
    (hreleased : t.released + worst < Amount.limit)
    (hprofit : t.profit + odds.gain amount < Amount.limit)
    (hcredited : t.credited + (amount + odds.gain amount) < Amount.limit) :
    ∃ t', t.win spot amount odds = .ok t' := by
  have hpays : odds.profit amount = .ok (odds.gain amount) :=
    Odds.profit_eq_ok_iff.mpr ⟨hden, by omega, rfl⟩
  unfold win
  rw [hpays, ok_bind, Amount.add_of_lt (by omega), ok_bind, Amount.add_of_lt hcredited, ok_bind,
    Amount.add_of_lt hprofit, ok_bind, hworst, ok_bind, Amount.add_of_lt hreleased]
  exact ⟨_, rfl⟩

theorem lose_of_lt (hworst : spot.reserve amount = .ok worst)
    (hreleased : t.released + worst < Amount.limit) (hlost : t.lost + amount < Amount.limit) :
    ∃ t', t.lose spot amount = .ok t' := by
  unfold lose
  rw [Amount.add_of_lt hlost, ok_bind, hworst, ok_bind, Amount.add_of_lt hreleased]
  exact ⟨_, rfl⟩

theorem push_of_lt (hworst : spot.reserve amount = .ok worst)
    (hreleased : t.released + worst < Amount.limit) (hpushed : t.pushed + amount < Amount.limit)
    (hcredited : t.credited + amount < Amount.limit) : ∃ t', t.push spot amount = .ok t' := by
  unfold push
  rw [Amount.add_of_lt hcredited, ok_bind, Amount.add_of_lt hpushed, ok_bind, hworst, ok_bind,
    Amount.add_of_lt hreleased]
  exact ⟨_, rfl⟩

theorem Balanced.win (h : t.Balanced) (ht : t.win spot amount odds = .ok t') : t'.Balanced := by
  obtain ⟨profit, worst, -, -, rfl⟩ := win_ok ht
  unfold Balanced at h ⊢
  dsimp only
  omega

theorem Balanced.lose (h : t.Balanced) (ht : t.lose spot amount = .ok t') : t'.Balanced := by
  obtain ⟨worst, -, rfl⟩ := lose_ok ht
  exact h

theorem Balanced.push (h : t.Balanced) (ht : t.push spot amount = .ok t') : t'.Balanced := by
  obtain ⟨worst, -, rfl⟩ := push_ok ht
  unfold Balanced at h ⊢
  dsimp only
  omega

end Tally

namespace Seat

variable {κ : Type} {s t u : Seat κ} {spot : Spot} {w : Wager}

/-! ## What is written -/

/-- At most wagers and trackers were written. -/
def Rewritten (s t : Seat κ) : Prop := ∃ wagers trackers, t = { s with wagers, trackers }

theorem Rewritten.setWager (h : s.Rewritten t) (hset : t.setWager spot w = .ok u) :
    s.Rewritten u := by
  obtain ⟨wagers, trackers, rfl⟩ := h
  obtain ⟨i, -, -, rfl⟩ := setWager_ok hset
  exact ⟨_, trackers, rfl⟩

theorem Rewritten.land {move : Spot × Nat} (h : s.Rewritten t) (hland : t.land move = .ok u) :
    s.Rewritten u := by
  unfold Seat.land at hland
  simp only [bind_eq_ok_iff] at hland
  obtain ⟨-, -, after, -, hset⟩ := hland
  exact h.setWager hset

theorem Rewritten.restTrackers (h : s.Rewritten t) : s.Rewritten t.restTrackers := by
  obtain ⟨wagers, trackers, rfl⟩ := h
  exact ⟨wagers, _, rfl⟩

/-- One wager is part of what all of them sum up to. -/
theorem le_total (measure : Spot → Wager → Nat) (h : s.wager spot = .ok w) :
    measure spot w ≤ s.total measure := by
  obtain ⟨i, -, hspot, rfl⟩ := wager_ok h
  rw [← hspot]
  unfold total
  rw [← Finset.add_sum_erase _ _ (Finset.mem_univ i)]
  exact Nat.le_add_right _ _

/-! ## One spot -/

/-- How far a settlement has come that cannot be refused: the spots that are left exist, as do those
to which wagers are on their way. -/
structure Proceeding (before : Seat κ) (rest : List Spot) (p : Progress κ) : Prop
    extends Settling before rest p where
  known : ∀ spot ∈ rest, ∃ i, spot.index? = some i
  arriving : ∀ move ∈ p.moves, ∃ i, move.1.index? = some i
  balanced : p.tally.Balanced
  rewritten : before.Rewritten p.seat

section Step

variable {before : Seat κ} {rest : List Spot} {p p' : Progress κ} {view : RollView} {worst : Nat}

/-- What one wager adds to the tally, the seat had at risk or tied up. -/
theorem Proceeding.room (h : Proceeding before (spot :: rest) p) (hw : before.wager spot = .ok w)
    (hr : w.rides = true) (hworst : spot.reserve w.amount = .ok worst) :
    p.tally.released + worst ≤ before.exposure ∧ p.tally.lost + w.amount ≤ before.stakes ∧
      p.tally.credited + w.amount ≤ before.stakes + p.tally.profit := by
  have hatRisk : w.atRisk ≤ p.seat.stakes := le_total (fun _ w => w.atRisk) (h.wager_eq hw)
  have htied : spot.tied w.atRisk ≤ p.seat.exposure :=
    le_total (fun spot w => spot.tied w.atRisk) (h.wager_eq hw)
  rw [Wager.atRisk_of_rides hr] at hatRisk htied
  rw [Spot.tied_of_reserve hworst] at htied
  have hexposure := h.exposure
  have hstakes := h.stakes
  have hbalanced : p.tally.pushed + p.tally.profit ≤ p.tally.credited := h.balanced
  omega

/-- A spot that is left has a verdict, and the tally has room for it. -/
theorem Proceeding.judge_succeeds (h : Proceeding before (spot :: rest) p) (hs : before.Sound)
    (hphase : view.phase.Valid) (hroom : before.stakes + before.exposure < Amount.limit) :
    ∃ p', Progress.judge before view p spot = .ok p' := by
  obtain ⟨i, hi⟩ := h.known spot List.mem_cons_self
  obtain ⟨w, hw⟩ : ∃ w, before.wager spot = .ok w := ⟨_, wager_of_index hi⟩
  unfold Progress.judge
  rw [hw, ok_bind]
  by_cases hr : w.rides = true
  · rw [if_pos hr]
    obtain ⟨worst, hworst⟩ := (hs.holds hw).reserved hr
    obtain ⟨best, hbest, -, -, hbound⟩ := Spot.reserve_eq_ok_iff.mp hworst
    obtain ⟨verdict, hv⟩ := Spot.verdict_ok hphase hbest
    obtain ⟨hreleased, hlost, hcredited⟩ := h.room hw hr hworst
    have hcovered := h.covered
    have hbalanced : p.tally.pushed + p.tally.profit ≤ p.tally.credited := h.balanced
    rw [hv, ok_bind]
    cases verdict with
    | win odds =>
      have hodds : odds.AtMost best := Spot.verdict_win_atMost hv hbest
      have hgain : odds.gain w.amount ≤ best.gain w.amount := Odds.gain_le_gain hodds w.amount
      obtain ⟨tally, ht⟩ : ∃ tally, p.tally.win spot w.amount odds = .ok tally :=
        Tally.win_of_lt hworst hodds.1 (by omega) (by omega) (by omega)
      dsimp only
      rw [ht, ok_bind, setWager_of_index hi]
      exact ⟨_, rfl⟩
    | lose =>
      obtain ⟨tally, ht⟩ : ∃ tally, p.tally.lose spot w.amount = .ok tally :=
        Tally.lose_of_lt hworst (by omega) (by omega)
      dsimp only
      rw [ht, ok_bind, setWager_of_index hi]
      exact ⟨_, rfl⟩
    | push =>
      obtain ⟨tally, ht⟩ : ∃ tally, p.tally.push spot w.amount = .ok tally :=
        Tally.push_of_lt hworst (by omega) (by omega) (by omega)
      dsimp only
      rw [ht, ok_bind, setWager_of_index hi]
      exact ⟨_, rfl⟩
    | carry =>
      dsimp only
      rw [wager_of_index hi, ok_bind, setWager_of_index hi]
      exact ⟨_, rfl⟩
    | travel n =>
      dsimp only
      rw [setWager_of_index hi]
      exact ⟨_, rfl⟩
  · rw [if_neg hr]
    exact ⟨p, rfl⟩

/-- Every verdict lets the settlement go on. -/
theorem Proceeding.judge (h : Proceeding before (spot :: rest) p)
    (hj : Progress.judge before view p spot = .ok p') (hlo : 2 ≤ view.sum) (hhi : view.sum ≤ 12) :
    Proceeding before rest p' := by
  have hsettling := h.toSettling.judge hj
  have hknown : ∀ other ∈ rest, ∃ i, other.index? = some i :=
    fun other ho => h.known other (List.mem_cons_of_mem _ ho)
  cases judge_ok hj with
  | idle => exact ⟨hsettling, hknown, h.arriving, h.balanced, h.rewritten⟩
  | win _ _ _ ht hset =>
    exact ⟨hsettling, hknown, h.arriving, h.balanced.win ht, h.rewritten.setWager hset⟩
  | lose _ _ ht hset =>
    exact ⟨hsettling, hknown, h.arriving, h.balanced.lose ht, h.rewritten.setWager hset⟩
  | push _ _ ht hset =>
    exact ⟨hsettling, hknown, h.arriving, h.balanced.push ht, h.rewritten.setWager hset⟩
  | carry _ _ hset =>
    exact ⟨hsettling, hknown, h.arriving, h.balanced, h.rewritten.setWager hset⟩
  | travel _ _ hv hset =>
    refine ⟨hsettling, hknown, fun move hm => ?_, h.balanced, h.rewritten.setWager hset⟩
    rcases List.mem_append.mp hm with hold | hnew
    · exact h.arriving move hold
    · rw [List.mem_singleton.mp hnew]
      exact Spot.index?_landing spot (Spot.point_of_travel hlo hhi hv)

end Step

/-! ## Arrivals -/

/-- A wager can arrive where the stake that rides stays an amount. -/
theorem land_succeeds {move : Spot × Nat} (hs : s.Sound)
    (hspot : ∃ i, move.1.index? = some i) (hroom : s.stakes + move.2 < Amount.limit) :
    ∃ t, s.land move = .ok t := by
  obtain ⟨i, hi⟩ := hspot
  obtain ⟨w, hw⟩ : ∃ w, s.wager move.1 = .ok w := ⟨_, wager_of_index hi⟩
  have hatRisk : w.atRisk ≤ s.stakes := le_total (fun _ w => w.atRisk) hw
  have hamount : w.amount ≤ s.stakes := by
    cases hr : w.rides with
    | true => rwa [Wager.atRisk_of_rides hr] at hatRisk
    | false => exact ((hs.holds hw).idle hr).le.trans (Nat.zero_le _)
  unfold land Wager.add
  rw [hw, ok_bind, Amount.add_of_lt (by omega), ok_bind]
  split
  all_goals exact ⟨_, setWager_of_index hi⟩

/-- What is left to do for the wagers on their way. -/
structure Landing (s : Seat κ) (moves : List (Spot × Nat)) (t : Seat κ) : Prop where
  sound : t.Sound
  rewritten : s.Rewritten t
  boxed : ∀ move ∈ moves, Boxed move
  arriving : ∀ move ∈ moves, ∃ i, move.1.index? = some i
  room : t.stakes + (moves.map Prod.snd).sum < Amount.limit

theorem Landing.land {move : Spot × Nat} {moves : List (Spot × Nat)}
    (h : Landing s (move :: moves) t) : ∃ u, t.land move = .ok u ∧ Landing s moves u := by
  have hroom := h.room
  rw [List.map_cons, List.sum_cons] at hroom
  have hspot : ∃ i, move.1.index? = some i := h.arriving move List.mem_cons_self
  obtain ⟨u, hland⟩ := land_succeeds h.sound hspot (by omega)
  obtain ⟨hsound, -, -, hstakes, -⟩ := land_ok h.sound (h.boxed move List.mem_cons_self) hland
  exact ⟨u, hland, hsound, h.rewritten.land hland,
    fun other ho => h.boxed other (List.mem_cons_of_mem _ ho),
    fun other ho => h.arriving other (List.mem_cons_of_mem _ ho), by omega⟩

/-! ## The whole roll -/

/-- The trackers count every roll of two dice. -/
theorem track_succeeds {phase : Phase} {sum : Nat} (hphase : phase.Valid) (hlo : 2 ≤ sum)
    (hhi : sum ≤ 12) : ∃ t, s.track (phase.step sum).2 sum = .ok t := by
  have hhit : ∃ hit, sumBit sum = .ok hit := by
    unfold sumBit Dice.sumIndex?
    by_cases hseven : sum = 7
    · rw [if_pos hseven]
      exact ⟨_, rfl⟩
    · rw [if_neg hseven, dif_pos ⟨hlo, hhi⟩]
      exact ⟨_, rfl⟩
  have hpoint : ∃ point, pointBit (phase.step sum).2 = .ok point := by
    cases hcall : (phase.step sum).2 with
    | pointMade p =>
      -- only the number that was the point is made
      have hvalid : (Dice.pointIndex? p).isSome = true := by
        unfold Phase.step at hcall
        split at hcall
        · repeat' split at hcall
          all_goals cases hcall
        · repeat' split at hcall
          all_goals cases hcall
          exact hphase
      obtain ⟨i, hi⟩ := Option.isSome_iff_exists.mp hvalid
      unfold pointBit
      dsimp only
      rw [hi]
      exact ⟨_, rfl⟩
    | _ => exact ⟨_, rfl⟩
  obtain ⟨hit, hhit⟩ := hhit
  obtain ⟨point, hpoint⟩ := hpoint
  unfold track
  dsimp only
  rw [hhit, hpoint]
  split
  all_goals exact ⟨_, rfl⟩

/-- A seat all of whose wagers a roll decided, and where the money goes, before that is booked. -/
def decided (s : Seat κ) (phase : Phase) (roll : Roll) (fieldTriple : Bool) :
    Except Fault (Seat κ × Tally) := do
  let call := (phase.step roll.sum).2
  let tracked ← s.track call roll.sum
  let view : RollView := { phase, roll, call, fieldTriple, trackers := tracked.trackers }
  let p ← Spot.order.foldlM (Progress.judge s view) ⟨tracked, {}, []⟩
  let landed ← p.moves.foldlM land p.seat
  return (landed.restTrackers, p.tally)

/-- Settling is to decide and then to book. -/
theorem settle_eq (s : Seat κ) (phase : Phase) (roll : Roll) (fieldTriple : Bool) :
    s.settle phase roll fieldTriple = do
      let d ← s.decided phase roll fieldTriple
      return (← d.1.book d.2, d.2) := by
  unfold settle settleAlong decided
  simp only [bind_assoc, pure_bind]

/-- The money of a seat that was decided comes from what it had at risk and tied up. -/
structure Decided (before : Seat κ) (d : Seat κ × Tally) : Prop where
  rewritten : before.Rewritten d.1
  released : d.2.released ≤ before.exposure
  covered : d.2.profit ≤ d.2.released
  lost : d.2.lost ≤ before.stakes
  credited : d.2.credited ≤ before.stakes + d.2.profit

/-- Any roll of two dice decides all wagers of a sound seat. -/
theorem decided_ok {phase : Phase} {roll : Roll} (hs : s.Sound) (hphase : phase.Valid)
    (hroll : ∃ square, roll = Roll.ofSquare square)
    (hroom : s.stakes + s.exposure < Amount.limit) (fieldTriple : Bool) :
    ∃ d, s.decided phase roll fieldTriple = .ok d ∧ s.Decided d := by
  obtain ⟨hlo, hhi⟩ : 2 ≤ roll.sum ∧ roll.sum ≤ 12 := by
    obtain ⟨square, rfl⟩ := hroll
    exact Roll.sum_ofSquare_range square
  obtain ⟨tracked, htrack⟩ := track_succeeds (s := s) hphase hlo hhi
  obtain ⟨trackers, rfl⟩ := track_ok htrack
  -- the walk over the spots
  have hbegin : Proceeding s Spot.order ⟨{ s with trackers }, {}, []⟩ :=
    ⟨Settling.begin hs order_nodup trackers, fun _ hmem => Spot.exists_index_of_mem_order hmem,
      fun _ hm => absurd hm List.not_mem_nil, Nat.le_refl 0, ⟨s.wagers, trackers, rfl⟩⟩
  let view : RollView :=
    { phase, roll, call := (phase.step roll.sum).2, fieldTriple, trackers }
  have hstep : ∀ spot rest p, Proceeding s (spot :: rest) p →
      ∃ p', Progress.judge s view p spot = .ok p' ∧ Proceeding s rest p' := by
    intro spot rest p hinv
    obtain ⟨p', hp'⟩ : ∃ p', Progress.judge s view p spot = .ok p' :=
      hinv.judge_succeeds hs hphase hroom
    exact ⟨p', hp', hinv.judge hp' hlo hhi⟩
  obtain ⟨p, hp, hend⟩ := foldlM_progress (Proceeding s) hstep hbegin
  have hexposure := hend.exposure
  have hstakes := hend.stakes
  have hcovered := hend.covered
  have hbalanced : p.tally.pushed + p.tally.profit ≤ p.tally.credited := hend.balanced
  -- the wagers on their way
  have hlanding : Landing s p.moves p.seat := by
    refine ⟨hend.sound, hend.rewritten, hend.boxed, hend.arriving, ?_⟩
    show p.seat.stakes + p.moving < Amount.limit
    omega
  obtain ⟨landed, hland, harrived⟩ :=
    foldlM_progress (Landing s) (fun move moves t hinv => hinv.land) hlanding
  refine ⟨(landed.restTrackers, p.tally), ?_, harrived.rewritten.restTrackers, ?_, hcovered, ?_, ?_⟩
  · unfold decided
    dsimp only
    rw [htrack, ok_bind, hp, ok_bind, hland]
    rfl
  all_goals
    dsimp only
    omega

/-! ## Booking -/

section Booking

variable {tally : Tally}

/-- The seat's lifetime totals can take a settlement. -/
def CountersFit (s : Seat κ) (tally : Tally) : Prop :=
  s.totalWon + tally.profit < Amount.limit ∧ s.totalLost + tally.lost < Amount.limit ∧
    s.totalPushed + tally.pushed < Amount.limit

theorem Rewritten.countersFit_iff (h : s.Rewritten t) :
    t.CountersFit tally ↔ s.CountersFit tally := by
  obtain ⟨wagers, trackers, rfl⟩ := h
  exact Iff.rfl

theorem Rewritten.pending (h : s.Rewritten t) : t.pending = s.pending := by
  obtain ⟨wagers, trackers, rfl⟩ := h
  rfl

theorem book_of_fits (hroom : s.pending + tally.credited < Amount.limit)
    (hfit : s.CountersFit tally) : ∃ t, s.book tally = .ok t := by
  obtain ⟨hwon, hlost, hpushed⟩ := hfit
  unfold book
  rw [Amount.add_of_lt hroom, ok_bind, Amount.add_of_lt hwon, ok_bind, Amount.add_of_lt hlost,
    ok_bind, Amount.add_of_lt hpushed]
  exact ⟨_, rfl⟩

/-- If what was credited can wait to be collected, only a lifetime total refuses a booking. -/
theorem book_of_not_fits (hroom : s.pending + tally.credited < Amount.limit)
    (hfit : ¬s.CountersFit tally) : s.book tally = .error .overflow := by
  unfold book
  rw [Amount.add_of_lt hroom, ok_bind]
  by_cases hwon : s.totalWon + tally.profit < Amount.limit
  · rw [Amount.add_of_lt hwon, ok_bind]
    by_cases hlost : s.totalLost + tally.lost < Amount.limit
    · rw [Amount.add_of_lt hlost, ok_bind]
      have hpushed : Amount.limit ≤ s.totalPushed + tally.pushed :=
        Nat.le_of_not_lt fun hpushed => hfit ⟨hwon, hlost, hpushed⟩
      rw [Amount.add_of_le hpushed, error_bind]
    · rw [Amount.add_of_le (Nat.le_of_not_lt hlost), error_bind]
  · rw [Amount.add_of_le (Nat.le_of_not_lt hwon), error_bind]

section Whole

variable {phase : Phase} {roll : Roll} {fieldTriple : Bool} {d : Seat κ × Tally}

/-- When a seat was decided, only its lifetime totals refuse to settle it. -/
theorem settle_of_fits (hd : s.decided phase roll fieldTriple = .ok d) (h : s.Rewritten d.1)
    (hroom : s.pending + d.2.credited < Amount.limit) (hfit : s.CountersFit d.2) :
    ∃ t, s.settle phase roll fieldTriple = .ok (t, d.2) := by
  rw [← h.pending] at hroom
  rw [← h.countersFit_iff] at hfit
  obtain ⟨t, hbook⟩ := book_of_fits hroom hfit
  rw [settle_eq, hd, ok_bind, hbook]
  exact ⟨t, rfl⟩

theorem settle_of_not_fits (hd : s.decided phase roll fieldTriple = .ok d) (h : s.Rewritten d.1)
    (hroom : s.pending + d.2.credited < Amount.limit) (hfit : ¬s.CountersFit d.2) :
    s.settle phase roll fieldTriple = .error .overflow := by
  rw [← h.pending] at hroom
  rw [← h.countersFit_iff] at hfit
  rw [settle_eq, hd, ok_bind, book_of_not_fits hroom hfit, error_bind]

end Whole

end Booking

end Seat

namespace Table

variable {t : Table} {tally : Tally}

/-- The table's lifetime totals can take a settlement. -/
def CountersFit (t : Table) (tally : Tally) : Prop :=
  t.totalCollected + tally.lost < Amount.limit ∧ t.totalPayouts + tally.profit < Amount.limit

/-- The bankroll grows to an amount that covers the profit, and no more is released than is
reserved. -/
structure Affords (t : Table) (tally : Tally) : Prop where
  grown : t.bankroll + tally.lost < Amount.limit
  profit : tally.profit ≤ t.bankroll + tally.lost
  released : tally.released ≤ t.reserved

theorem book_of_fits (h : t.Affords tally) (hfit : t.CountersFit tally) :
    ∃ t', t.book tally.profit tally.lost tally.released = .ok t' := by
  obtain ⟨hcollected, hpayouts⟩ := hfit
  have hrelease := Amount.sub_eq_ok_iff.mpr ⟨h.released, rfl⟩
  unfold book
  rw [Amount.add_of_lt h.grown, ok_bind, require_of_true h.profit, ok_bind, hrelease, ok_bind,
    Amount.add_of_lt hcollected, ok_bind, Amount.add_of_lt hpayouts]
  exact ⟨_, rfl⟩

/-- If the table affords a settlement, only a lifetime total refuses to book it. -/
theorem book_of_not_fits (h : t.Affords tally) (hfit : ¬t.CountersFit tally) :
    t.book tally.profit tally.lost tally.released = .error .overflow := by
  have hrelease := Amount.sub_eq_ok_iff.mpr ⟨h.released, rfl⟩
  unfold book
  rw [Amount.add_of_lt h.grown, ok_bind, require_of_true h.profit, ok_bind, hrelease, ok_bind]
  by_cases hcollected : t.totalCollected + tally.lost < Amount.limit
  · have hpayouts : Amount.limit ≤ t.totalPayouts + tally.profit :=
      Nat.le_of_not_lt fun hpayouts => hfit ⟨hcollected, hpayouts⟩
    rw [Amount.add_of_lt hcollected, ok_bind, Amount.add_of_le hpayouts, error_bind]
  · rw [Amount.add_of_le (Nat.le_of_not_lt hcollected), error_bind]

end Table

end DiceHouse
