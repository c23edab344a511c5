import DiceHouse.Proofs.Seat.Exposure
import DiceHouse.Seat.Settle

/-!
# What settling a seat changes

A settlement moves stake between four places: it goes on riding, it is lost to the house, it is
credited to the player, or it is on its way from a come box to its number. `Settling` is the
invariant of going through the spots: nothing is lost between these places but what the house adds
as profit, the bankroll released so far is what the wagers decided so far tied up, and it covers the
profit. Spots that are still to come hold what they held before the roll, so the verdict passed on
the old wager is carried out on the same one.

Wagers that left their box land when all spots were judged. They tie up on their number what they
tied up in the box, and their stake rides on.
-/

namespace DiceHouse

namespace Tally

variable {t t' : Tally} {spot : Spot} {amount : Nat} {odds : Odds}

theorem win_ok (h : t.win spot amount odds = .ok t') :
    ∃ profit worst, odds.profit amount = .ok profit ∧ spot.reserve amount = .ok worst ∧
      t' = { t with
        credited := t.credited + (amount + profit)
        profit := t.profit + profit
        released := t.released + worst
        resolved := t.resolved + 1 } := by
  unfold win at h
  simp only [bind_eq_ok_iff, Amount.add_eq_ok_iff, pure_eq_ok_iff] at h
  obtain ⟨profit, hp, back, ⟨-, rfl⟩, -, ⟨-, rfl⟩, -, ⟨-, rfl⟩, worst, hw, -, ⟨-, rfl⟩, rfl⟩ := h
  exact ⟨profit, worst, hp, hw, rfl⟩

theorem lose_ok (h : t.lose spot amount = .ok t') :
    ∃ worst, spot.reserve amount = .ok worst ∧
      t' = { t with
        lost := t.lost + amount
        released := t.released + worst
        resolved := t.resolved + 1 } := by
  unfold lose at h
  simp only [bind_eq_ok_iff, Amount.add_eq_ok_iff, pure_eq_ok_iff] at h
  obtain ⟨-, ⟨-, rfl⟩, worst, hw, -, ⟨-, rfl⟩, rfl⟩ := h
  exact ⟨worst, hw, rfl⟩

theorem push_ok (h : t.push spot amount = .ok t') :
    ∃ worst, spot.reserve amount = .ok worst ∧
      t' = { t with
        credited := t.credited + amount
        pushed := t.pushed + amount
        released := t.released + worst
        resolved := t.resolved + 1 } := by
  unfold push at h
  simp only [bind_eq_ok_iff, Amount.add_eq_ok_iff, pure_eq_ok_iff] at h
  obtain ⟨-, ⟨-, rfl⟩, -, ⟨-, rfl⟩, worst, hw, -, ⟨-, rfl⟩, rfl⟩ := h
  exact ⟨worst, hw, rfl⟩

end Tally

namespace Seat

variable {κ : Type}

/-- The stake that left its box and has not arrived. -/
def Progress.moving (p : Progress κ) : Nat := (p.moves.map Prod.snd).sum

/-- A wager on its way, to a spot on which stake ties up as much as itself. -/
def Boxed (move : Spot × Nat) : Prop := move.1.worstOdds = .ok .even ∧ 0 < move.2

/-- How far a settlement has come with the spots that are left. -/
structure Settling (before : Seat κ) (rest : List Spot) (p : Progress κ) : Prop where
  nodup : rest.Nodup
  untouched : ∀ spot ∈ rest, p.seat.wager spot = before.wager spot
  sound : p.seat.Sound
  owner : p.seat.owner = before.owner
  pending : p.seat.pending = before.pending
  exposure : p.seat.exposure + p.tally.released + p.moving = before.exposure
  stakes : p.seat.stakes + p.tally.lost + p.tally.credited + p.moving
    = before.stakes + p.tally.profit
  covered : p.tally.profit ≤ p.tally.released
  boxed : ∀ move ∈ p.moves, Boxed move

/-- What a whole settlement does to the seat, and what it makes the house book. -/
structure Settled (before : Seat κ) (settled : Seat κ × Tally) : Prop where
  sound : settled.1.Sound
  owner : settled.1.owner = before.owner
  exposure : settled.1.exposure + settled.2.released = before.exposure
  stakes : settled.1.stakes + settled.1.pending + settled.2.lost
    = before.stakes + before.pending + settled.2.profit
  covered : settled.2.profit ≤ settled.2.released

/-! ## One spot -/

section Step

variable {before seat : Seat κ} {spot : Spot} {rest : List Spot} {p p' : Progress κ} {w : Wager}
  {tally : Tally} {ending : WagerEnding} {view : RollView}

/-- All that judging one spot can be. -/
inductive Judgement (before : Seat κ) (view : RollView) (p : Progress κ) (spot : Spot) :
    Progress κ → Prop where
  | idle : Judgement before view p spot p
  | win {w : Wager} {odds : Odds} {tally : Tally} {seat : Seat κ}
    (hw : before.wager spot = .ok w) (hr : w.rides = true)
    (hv : spot.verdict view = .ok (.win odds)) (ht : p.tally.win spot w.amount odds = .ok tally)
    (hset : p.seat.setWager spot (.cleared .won) = .ok seat) :
    Judgement before view p spot { p with seat, tally }
  | lose {w : Wager} {tally : Tally} {seat : Seat κ}
    (hw : before.wager spot = .ok w) (hr : w.rides = true)
    (ht : p.tally.lose spot w.amount = .ok tally)
    (hset : p.seat.setWager spot (.cleared .lost) = .ok seat) :
    Judgement before view p spot { p with seat, tally }
  | push {w : Wager} {tally : Tally} {seat : Seat κ}
    (hw : before.wager spot = .ok w) (hr : w.rides = true)
    (ht : p.tally.push spot w.amount = .ok tally)
    (hset : p.seat.setWager spot (.cleared .pushed) = .ok seat) :
    Judgement before view p spot { p with seat, tally }
  | carry {w now : Wager} {seat : Seat κ} (hw : before.wager spot = .ok w)
    (hnow : p.seat.wager spot = .ok now) (hset : p.seat.setWager spot now.carry = .ok seat) :
    Judgement before view p spot { p with seat }
  | travel {w : Wager} {n : Nat} {seat : Seat κ}
    (hw : before.wager spot = .ok w) (hr : w.rides = true)
    (hv : spot.verdict view = .ok (.travel n))
    (hset : p.seat.setWager spot (.cleared .none) = .ok seat) :
    Judgement before view p spot { p with seat, moves := p.moves ++ [(spot.landing n, w.amount)] }

theorem judge_ok (h : Progress.judge before view p spot = .ok p') :
    Judgement before view p spot p' := by
  unfold Progress.judge at h
  rw [bind_eq_ok_iff] at h
  obtain ⟨w, hw, h⟩ := h
  split at h
  · next hr =>
    rw [bind_eq_ok_iff] at h
    obtain ⟨verdict, hv, h⟩ := h
    cases verdict with
    | win odds =>
      simp only [bind_eq_ok_iff, pure_eq_ok_iff] at h
      obtain ⟨tally, ht, seat, hset, rfl⟩ := h
      exact .win hw hr hv ht hset
    | lose =>
      simp only [bind_eq_ok_iff, pure_eq_ok_iff] at h
      obtain ⟨tally, ht, seat, hset, rfl⟩ := h
      exact .lose hw hr ht hset
    | push =>
      simp only [bind_eq_ok_iff, pure_eq_ok_iff] at h
      obtain ⟨tally, ht, seat, hset, rfl⟩ := h
      exact .push hw hr ht hset
    | carry =>
      simp only [bind_eq_ok_iff, pure_eq_ok_iff] at h
      obtain ⟨now, hnow, seat, hset, rfl⟩ := h
      exact .carry hw hnow hset
    | travel n =>
      simp only [bind_eq_ok_iff, pure_eq_ok_iff] at h
      obtain ⟨seat, hset, rfl⟩ := h
      exact .travel hw hr hv hset
  · rw [pure_eq_ok_iff] at h
    exact h ▸ .idle

/-- A wager that is given away is lost, and one that does not ride stays. -/
theorem surrender_ok {q q' : Seat κ × Tally} (h : Seat.surrender before q spot = .ok q') :
    ∃ w, before.wager spot = .ok w ∧
      (w.rides = false ∧ q' = q ∨
        w.rides = true ∧ ∃ tally seat, q.2.lose spot w.amount = .ok tally ∧
          q.1.setWager spot (.cleared .lost) = .ok seat ∧ q' = (seat, tally)) := by
  unfold Seat.surrender at h
  rw [bind_eq_ok_iff] at h
  obtain ⟨w, hw, h⟩ := h
  refine ⟨w, hw, ?_⟩
  split at h
  · next hr =>
    simp only [bind_eq_ok_iff, pure_eq_ok_iff] at h
    obtain ⟨tally, ht, seat, hset, rfl⟩ := h
    exact .inr ⟨hr, tally, seat, ht, hset, rfl⟩
  · next hr =>
    rw [pure_eq_ok_iff] at h
    exact .inl ⟨by simpa using hr, h.symm⟩

theorem Settling.skip (h : Settling before (spot :: rest) p) : Settling before rest p :=
  ⟨(List.nodup_cons.mp h.nodup).2, fun other ho => h.untouched other (List.mem_cons_of_mem _ ho),
    h.sound, h.owner, h.pending, h.exposure, h.stakes, h.covered, h.boxed⟩

/-- The wager that is decided is the one that the seat had before. -/
theorem Settling.wager_eq (h : Settling before (spot :: rest) p)
    (hw : before.wager spot = .ok w) : p.seat.wager spot = .ok w := by
  rw [h.untouched spot List.mem_cons_self, hw]

theorem Settling.untouched_setWager (h : Settling before (spot :: rest) p)
    (hset : p.seat.setWager spot w = .ok seat) :
    ∀ other ∈ rest, seat.wager other = before.wager other := by
  intro other ho
  have hne : other ≠ spot := fun hc => (List.nodup_cons.mp h.nodup).1 (hc ▸ ho)
  rw [wager_setWager_of_ne hset hne]
  exact h.untouched other (List.mem_cons_of_mem _ ho)

/-- A spot that is cleared gives its stake and its reservation free. -/
theorem Settling.clear (h : Settling before (spot :: rest) p) (hw : before.wager spot = .ok w)
    (hr : w.rides = true) (hset : p.seat.setWager spot (.cleared ending) = .ok seat) :
    seat.stakes + w.amount = p.seat.stakes ∧
      seat.exposure + spot.tied w.amount = p.seat.exposure := by
  have hstakes := stakes_setWager (h.wager_eq hw) hset
  have hexposure := exposure_setWager (h.wager_eq hw) hset
  rw [Wager.atRisk_of_rides hr, Wager.atRisk_cleared] at hstakes hexposure
  rw [Nat.add_zero] at hstakes
  rw [Spot.tied_zero, Nat.add_zero] at hexposure
  exact ⟨hstakes, hexposure⟩

/-- A wager that ended stays in the balance if the tally says where its stake went, adds what it
tied up to the release and pays no more than that. -/
theorem Settling.ended {worst : Nat} (h : Settling before (spot :: rest) p)
    (hw : before.wager spot = .ok w) (hr : w.rides = true)
    (hworst : spot.reserve w.amount = .ok worst)
    (hset : p.seat.setWager spot (.cleared ending) = .ok seat)
    (hreleased : tally.released = p.tally.released + worst)
    (hprofit : tally.profit ≤ p.tally.profit + worst)
    (hstake : tally.lost + tally.credited + p.tally.profit
      = p.tally.lost + p.tally.credited + w.amount + tally.profit) :
    Settling before rest { p with seat, tally } := by
  obtain ⟨hstakes, hexposure⟩ := h.clear hw hr hset
  rw [Spot.tied_of_reserve hworst] at hexposure
  -- what leaves the seat is what the tally gains, so both balances stay
  have he := h.exposure
  have hs := h.stakes
  have hc := h.covered
  refine ⟨h.skip.nodup, h.untouched_setWager hset, h.sound.setWager (holds_cleared _ _) hset,
    (owner_setWager hset).trans h.owner, (pending_setWager hset).trans h.pending,
    ?_, ?_, ?_, h.boxed⟩
  all_goals simp only [Progress.moving] at he hs ⊢
  all_goals omega

theorem Settling.win {odds : Odds} (h : Settling before (spot :: rest) p)
    (hw : before.wager spot = .ok w) (hr : w.rides = true)
    (hv : spot.verdict view = .ok (.win odds)) (ht : p.tally.win spot w.amount odds = .ok tally)
    (hset : p.seat.setWager spot (.cleared ending) = .ok seat) :
    Settling before rest { p with seat, tally } := by
  obtain ⟨profit, worst, hp, hworst, rfl⟩ := Tally.win_ok ht
  have hle : profit ≤ worst := Spot.profit_le_reserve hv hworst hp
  refine h.ended hw hr hworst hset rfl ?_ ?_
  all_goals simp only
  all_goals omega

theorem Settling.lose (h : Settling before (spot :: rest) p) (hw : before.wager spot = .ok w)
    (hr : w.rides = true) (ht : p.tally.lose spot w.amount = .ok tally)
    (hset : p.seat.setWager spot (.cleared ending) = .ok seat) :
    Settling before rest { p with seat, tally } := by
  obtain ⟨worst, hworst, rfl⟩ := Tally.lose_ok ht
  refine h.ended hw hr hworst hset rfl (Nat.le_add_right _ _) ?_
  simp only
  omega

theorem Settling.push (h : Settling before (spot :: rest) p) (hw : before.wager spot = .ok w)
    (hr : w.rides = true) (ht : p.tally.push spot w.amount = .ok tally)
    (hset : p.seat.setWager spot (.cleared ending) = .ok seat) :
    Settling before rest { p with seat, tally } := by
  obtain ⟨worst, hworst, rfl⟩ := Tally.push_ok ht
  refine h.ended hw hr hworst hset rfl (Nat.le_add_right _ _) ?_
  simp only
  omega

theorem Settling.carry (h : Settling before (spot :: rest) p) (hw : before.wager spot = .ok w)
    (hset : p.seat.setWager spot w.carry = .ok seat) :
    Settling before rest { p with seat } := by
  have hstakes := stakes_setWager (h.wager_eq hw) hset
  have hexposure := exposure_setWager (h.wager_eq hw) hset
  rw [Wager.atRisk_carry] at hstakes hexposure
  have he := h.exposure
  have hs := h.stakes
  refine ⟨h.skip.nodup, h.untouched_setWager hset,
    h.sound.setWager (holds_carry (h.sound.holds (h.wager_eq hw))) hset,
    (owner_setWager hset).trans h.owner, (pending_setWager hset).trans h.pending,
    ?_, ?_, h.covered, h.boxed⟩
  all_goals simp only [Progress.moving] at he hs ⊢
  all_goals omega

/-- A wager in a box ties up its stake, on the way as in the box. -/
theorem Settling.travel {n : Nat} (h : Settling before (spot :: rest) p)
    (hw : before.wager spot = .ok w) (hr : w.rides = true)
    (hv : spot.verdict view = .ok (.travel n))
    (hset : p.seat.setWager spot (.cleared ending) = .ok seat) :
    Settling before rest { p with seat, moves := p.moves ++ [(spot.landing n, w.amount)] } := by
  have heven : spot.worstOdds = .ok .even := by
    rcases Spot.verdict_travel hv with rfl | rfl <;> rfl
  obtain ⟨hstakes, hexposure⟩ := h.clear hw hr hset
  -- a box pays even odds, so the wager ties up its stake
  have htied : spot.tied w.amount = w.amount := by
    obtain ⟨worst, hworst⟩ := (h.sound.holds (h.wager_eq hw)).reserved hr
    obtain ⟨odds, ho, -, -, rfl⟩ := Spot.reserve_eq_ok_iff.mp hworst
    cases heven.symm.trans ho
    rw [Spot.tied_of_reserve hworst, Odds.gain_even]
  rw [htied] at hexposure
  have he := h.exposure
  have hs := h.stakes
  refine ⟨h.skip.nodup, h.untouched_setWager hset, h.sound.setWager (holds_cleared _ _) hset,
    (owner_setWager hset).trans h.owner, (pending_setWager hset).trans h.pending,
    ?_, ?_, h.covered, fun move hm => ?_⟩
  · simp only [Progress.moving, List.map_append, List.map_cons, List.map_nil, List.sum_append,
      List.sum_cons, List.sum_nil] at he ⊢
    omega
  · simp only [Progress.moving, List.map_append, List.map_cons, List.map_nil, List.sum_append,
      List.sum_cons, List.sum_nil] at hs ⊢
    omega
  · rcases List.mem_append.mp hm with hold | hnew
    · exact h.boxed move hold
    · rw [List.mem_singleton.mp hnew]
      exact ⟨Spot.worstOdds_landing spot n, Wager.pos_of_rides hr⟩

/-- Every verdict keeps the invariant. -/
theorem Settling.judge (h : Settling before (spot :: rest) p)
    (hj : Progress.judge before view p spot = .ok p') : Settling before rest p' := by
  cases judge_ok hj with
  | idle => exact h.skip
  | win hw hr hv ht hset => exact h.win hw hr hv ht hset
  | lose hw hr ht hset => exact h.lose hw hr ht hset
  | push hw hr ht hset => exact h.push hw hr ht hset
  | carry hw hnow hset =>
    -- the wager is read again, from a seat that this spot has not been written on
    cases (h.wager_eq hw).symm.trans hnow
    exact h.carry hw hset
  | travel hw hr hv hset => exact h.travel hw hr hv hset

/-- Giving a wager to the house is losing it. -/
theorem Settling.surrender {q q' : Seat κ × Tally}
    (h : Settling before (spot :: rest) ⟨q.1, q.2, []⟩)
    (hj : Seat.surrender before q spot = .ok q') : Settling before rest ⟨q'.1, q'.2, []⟩ := by
  obtain ⟨w, hw, ⟨-, rfl⟩ | ⟨hr, tally, seat, ht, hset, rfl⟩⟩ := surrender_ok hj
  · exact h.skip
  · exact h.lose hw hr ht hset

end Step

/-! ## Arrivals -/

section Landing

variable {s t : Seat κ} {move : Spot × Nat}

/-- A wager that arrives ties up its stake, together with what was there already. -/
theorem land_ok (hs : s.Sound) (hm : Boxed move) (h : s.land move = .ok t) :
    t.Sound ∧ t.owner = s.owner ∧ t.pending = s.pending ∧ t.stakes = s.stakes + move.2 ∧
      t.exposure = s.exposure + move.2 := by
  obtain ⟨heven, hpos⟩ := hm
  unfold land at h
  simp only [bind_eq_ok_iff] at h
  obtain ⟨now, hnow, sum, hsum, hset⟩ := h
  have hold := hs.holds hnow
  obtain ⟨hrides, hamount, hlt⟩ := Wager.add_ok hold.idle hpos hsum
  have hreserve : move.1.reserve sum.amount = .ok sum.amount := Spot.reserve_of_even heven hlt
  have hbefore : move.1.reserve now.atRisk = .ok now.atRisk :=
    Spot.reserve_of_even heven (by omega)
  have hstakes := stakes_setWager hnow hset
  have hexposure := exposure_setWager hnow hset
  rw [Wager.atRisk_carry, Wager.atRisk_of_rides hrides] at hstakes hexposure
  rw [Spot.tied_of_reserve hbefore, Spot.tied_of_reserve hreserve] at hexposure
  refine ⟨hs.setWager (holds_carry ⟨fun hr => ?_, fun _ => ⟨_, hreserve⟩⟩) hset,
    owner_setWager hset, pending_setWager hset, by omega, by omega⟩
  -- what has arrived rides, so it need not be idle
  rw [hrides] at hr
  cases hr

theorem foldlM_land (hs : s.Sound) {moves : List (Spot × Nat)} (hm : ∀ move ∈ moves, Boxed move)
    (h : moves.foldlM land s = .ok t) :
    t.Sound ∧ t.owner = s.owner ∧ t.pending = s.pending ∧
      t.stakes = s.stakes + (moves.map Prod.snd).sum ∧
      t.exposure = s.exposure + (moves.map Prod.snd).sum := by
  induction moves generalizing s with
  | nil =>
    rw [List.foldlM_nil, pure_eq_ok_iff] at h
    subst h
    exact ⟨hs, rfl, rfl, by simp, by simp⟩
  | cons move moves ih =>
    rw [List.foldlM_cons, bind_eq_ok_iff] at h
    obtain ⟨s', hland, h⟩ := h
    obtain ⟨hs', ho, hp, hst, hex⟩ := land_ok hs (hm move List.mem_cons_self) hland
    obtain ⟨ht, ho', hp', hst', hex'⟩ :=
      ih hs' (fun other hmem => hm other (List.mem_cons_of_mem _ hmem)) h
    refine ⟨ht, ho'.trans ho, hp'.trans hp, ?_, ?_⟩
    · rw [hst', hst, List.map_cons, List.sum_cons, Nat.add_assoc]
    · rw [hex', hex, List.map_cons, List.sum_cons, Nat.add_assoc]

end Landing

/-! ## Whole settlements -/

section Whole

variable {s t : Seat κ} {order : List Spot} {settled : Seat κ × Tally} {tally : Tally}

theorem track_ok {call : Call} {sum : Nat} (h : s.track call sum = .ok t) :
    ∃ trackers, t = { s with trackers } := by
  unfold track at h
  dsimp only at h
  split at h
  all_goals
    simp only [bind_eq_ok_iff, pure_eq_ok_iff] at h
    obtain ⟨point, -, hit, -, rfl⟩ := h
    exact ⟨_, rfl⟩

theorem book_ok (h : s.restTrackers.book tally = .ok t) :
    t.wagers = s.wagers ∧ t.owner = s.owner ∧ t.pending = s.pending + tally.credited := by
  unfold book at h
  simp only [bind_eq_ok_iff, Amount.add_eq_ok_iff, pure_eq_ok_iff] at h
  obtain ⟨-, ⟨-, rfl⟩, -, -, -, -, -, -, rfl⟩ := h
  exact ⟨rfl, rfl, rfl⟩

/-- Before the first spot everything still rides. -/
theorem Settling.begin (hs : s.Sound) (horder : order.Nodup) (trackers : Trackers) :
    Settling s order ⟨{ s with trackers }, {}, []⟩ where
  nodup := horder
  untouched _ _ := rfl
  sound := hs
  owner := rfl
  pending := rfl
  exposure := by
    show s.exposure + 0 + 0 = s.exposure
    rw [Nat.add_zero]
  stakes := by
    show s.stakes + 0 + 0 + 0 = s.stakes + 0
    rw [Nat.add_zero]
  covered := Nat.le_refl _
  boxed _ hm := absurd hm List.not_mem_nil

/-- When all spots were gone through, a settlement only has to be booked. -/
theorem Settling.finish {before : Seat κ} {p : Progress κ} (h : Settling before [] p)
    (hland : p.moves.foldlM land p.seat = .ok s) (hbook : s.restTrackers.book p.tally = .ok t) :
    Settled before (t, p.tally) := by
  obtain ⟨hsound, howner, hpending, hstakes, hexposure⟩ := foldlM_land h.sound h.boxed hland
  obtain ⟨hw, ho, hp⟩ := book_ok hbook
  have hs := h.stakes
  have he := h.exposure
  have hpd := h.pending
  have hst : t.stakes = s.stakes := total_congr _ hw
  have hex : t.exposure = s.exposure := total_congr _ hw
  refine ⟨hsound.congr hw, by rw [ho, howner, h.owner], ?_, ?_, h.covered⟩
  all_goals simp only [Progress.moving] at hs he ⊢
  all_goals omega

/-- Settling accounts for all stake and all reservations, in whatever order no spot comes twice. -/
theorem settleAlong_ok {phase : Phase} {roll : Roll} {fieldTriple : Bool} (hs : s.Sound)
    (horder : order.Nodup) (h : settleAlong order s phase roll fieldTriple = .ok settled) :
    Settled s settled := by
  unfold settleAlong at h
  simp only [bind_eq_ok_iff, pure_eq_ok_iff] at h
  obtain ⟨tracked, htrack, p, hp, landed, hland, t, hbook, rfl⟩ := h
  obtain ⟨trackers, rfl⟩ := track_ok htrack
  -- the induction is on the spots that are left, none of which comes twice
  refine Settling.finish ?_ hland hbook
  refine foldlM_induction (Settling s) (fun spot rest p p' hinv => hinv.judge) ?_ hp
  exact Settling.begin hs horder trackers

theorem order_nodup : Spot.order.Nodup := List.Nodup.of_map _ Spot.order_index_nodup.1

theorem settle_ok {phase : Phase} {roll : Roll} {fieldTriple : Bool} (hs : s.Sound)
    (h : s.settle phase roll fieldTriple = .ok settled) : Settled s settled :=
  settleAlong_ok hs order_nodup h

theorem forfeit_ok (hs : s.Sound) (h : s.forfeit = .ok settled) : Settled s settled := by
  unfold forfeit at h
  simp only [bind_eq_ok_iff, pure_eq_ok_iff] at h
  obtain ⟨q, hq, t, hbook, rfl⟩ := h
  have hinv : Settling s [] ⟨q.1, q.2, []⟩ := by
    refine foldlM_induction (fun rest q => Settling s rest ⟨q.1, q.2, []⟩)
      (fun spot rest q q' hinv => hinv.surrender) ?_ hq
    exact Settling.begin hs order_nodup s.trackers
  exact hinv.finish rfl hbook

/-- A forfeiture pays nobody. -/
theorem profit_forfeit (h : s.forfeit = .ok settled) : settled.2.profit = 0 := by
  unfold forfeit at h
  simp only [bind_eq_ok_iff, pure_eq_ok_iff] at h
  obtain ⟨q, hq, t, hbook, rfl⟩ := h
  refine foldlM_induction (fun _ q => q.2.profit = 0) (fun spot _ q q' hq hstep => ?_) rfl hq
  obtain ⟨w, -, ⟨-, rfl⟩ | ⟨-, tally, seat, ht, -, rfl⟩⟩ := surrender_ok hstep
  · exact hq
  · obtain ⟨worst, -, rfl⟩ := Tally.lose_ok ht
    exact hq

end Whole

end Seat

end DiceHouse
