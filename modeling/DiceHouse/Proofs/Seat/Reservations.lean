import DiceHouse.Proofs.Seat.Course
import DiceHouse.Proofs.Seat.Tidy

/-!
# Reservations

What the house reserves for a wager hangs on the spot and on the stake, and on nothing that happens
at the table. So it is exact while the stake grows: a placement asks for what the stake ties up
after it less what it tied up before, a difference of two rounded quotients, and over any number of
placements these differences add up to what the whole stake ties up. No difference is ever negative,
since the quotients never fall when the stake grows.

And it is enough: no roll pays a wager more than is reserved for it, and a wager that leaves its box
ties up as much on its number.
-/

namespace DiceHouse

/-! ## Stake on a wager -/

namespace Wager

variable {w v : Wager} {amount : Nat}

/-- The wager with more stake. One that rides stays in its stage, any other starts afresh. -/
def raised (w : Wager) (amount : Nat) : Wager :=
  if w.rides then { w with amount := w.amount + amount }
  else ⟨w.amount + amount, WagerStage.fresh.code, WagerEnding.none.code⟩

@[simp] theorem amount_raised (w : Wager) (amount : Nat) :
    (w.raised amount).amount = w.amount + amount := by
  unfold raised
  split <;> rfl

theorem add_eq_ok_iff :
    w.add amount = .ok v ↔ w.amount + amount < Amount.limit ∧ v = w.raised amount := by
  unfold add raised
  rw [bind_eq_ok_iff]
  constructor
  · rintro ⟨total, htotal, h⟩
    obtain ⟨hlt, rfl⟩ := Amount.add_eq_ok_iff.mp htotal
    refine ⟨hlt, ?_⟩
    split at h
    · next hr =>
      rw [if_pos hr]
      exact (pure_eq_ok_iff.mp h).symm
    · next hr =>
      rw [if_neg hr]
      exact (pure_eq_ok_iff.mp h).symm
  · rintro ⟨hlt, rfl⟩
    refine ⟨_, Amount.add_of_lt hlt, ?_⟩
    split <;> rfl

/-- Where nothing rode nothing was, so all the stake is stake that rides. -/
theorem atRisk_of_idle (hidle : w.rides = false → w.amount = 0) : w.atRisk = w.amount := by
  cases hr : w.rides with
  | true => exact atRisk_of_rides hr
  | false => rw [atRisk_of_not_rides hr, hidle hr]

/-- A wager rides once it has more stake. -/
theorem rides_raised (hidle : w.rides = false → w.amount = 0) (hpos : 0 < amount)
    (hlt : w.amount + amount < Amount.limit) : (w.raised amount).rides = true :=
  (add_ok hidle hpos (add_eq_ok_iff.mpr ⟨hlt, rfl⟩)).1

end Wager

/-! ## Reservations as the stake grows -/

namespace Spot

variable {spot : Spot} {a b r : Nat}

/-- If what more stake ties up can be told, so can what less does, and it is no more. -/
theorem reserve_of_le (hle : a ≤ b) (h : spot.reserve b = .ok r) :
    ∃ less, spot.reserve a = .ok less ∧ less ≤ r := by
  obtain ⟨worst, hw, hden, hlt, rfl⟩ := reserve_eq_ok_iff.mp h
  have hmono : worst.gain a ≤ worst.gain b := worst.gain_mono hle
  exact ⟨_, reserve_eq_ok_iff.mpr ⟨worst, hw, hden, hmono.trans_lt hlt, rfl⟩, hmono⟩

theorem reserve_zero (h : spot.reserve b = .ok r) : spot.reserve 0 = .ok 0 := by
  obtain ⟨worst, hw, hden, -⟩ := reserve_eq_ok_iff.mp h
  have hnothing : worst.gain 0 = 0 := by
    unfold Odds.gain
    rw [Nat.zero_mul, Nat.zero_div]
  refine reserve_eq_ok_iff.mpr ⟨worst, hw, hden, ?_, hnothing.symm⟩
  rw [hnothing]
  decide

end Spot

namespace Seat

variable {κ : Type} {s t u : Seat κ} {spot : Spot} {amount reserved : Nat} {phase : Phase}

theorem totals_setWager {w : Wager} (h : s.setWager spot w = .ok t) :
    t.totalWon = s.totalWon ∧ t.totalLost = s.totalLost ∧ t.totalPushed = s.totalPushed := by
  obtain ⟨i, -, -, rfl⟩ := setWager_ok h
  exact ⟨rfl, rfl, rfl⟩

/-! ## One placement -/

/-- The seat with more stake on a spot: the wager there rides with it, the tracker of the spot
starts afresh, the stake is counted, and nothing else is another. -/
structure Raised (s : Seat κ) (spot : Spot) (amount : Nat) (t : Seat κ) : Prop where
  wager : t.bet spot = (s.bet spot).raised amount
  rides : (t.bet spot).rides = true
  stake : (t.bet spot).amount = (s.bet spot).atRisk + amount
  others : ∀ other, other ≠ spot → t.bet other = s.bet other
  tracker : ∀ other, t.trackers.of other = if other = spot then 0 else s.trackers.of other
  wagered : t.totalWagered = s.totalWagered + amount
  owner : t.owner = s.owner
  epoch : t.epoch = s.epoch
  pending : t.pending = s.pending
  won : t.totalWon = s.totalWon
  lost : t.totalLost = s.totalLost
  pushed : t.totalPushed = s.totalPushed

/-- All that a placement asks of the seat, the spot and the phase. -/
structure Welcomes (s : Seat κ) (spot : Spot) (amount : Nat) (phase : Phase) : Prop where
  positive : 0 < amount
  most : amount ≤ maxBet
  opens : spot.opensIn phase = true
  allows : s.allows spot amount = .ok ()
  exists_index : ∃ i, spot.index? = some i
  stake : (s.bet spot).amount + amount < Amount.limit
  counter : s.totalWagered + amount < Amount.limit
  reserve : ∃ r, spot.reserve ((s.bet spot).amount + amount) = .ok r

theorem Raised.noIdleStake (h : s.Raised spot amount t) (hs : s.NoIdleStake) : t.NoIdleStake := by
  intro i hr
  rw [← bet_ofIndex t] at hr ⊢
  by_cases hc : Spot.ofIndex i = spot
  · rw [hc, h.rides] at hr
    cases hr
  · rw [h.others _ hc] at hr ⊢
    rw [bet_ofIndex s] at hr ⊢
    exact hs i hr

/-- A granted placement adds its stake, and asks for what that ties up besides what was tied up. -/
theorem place_raised (hs : s.NoIdleStake) (h : s.place spot amount phase = .ok (t, reserved)) :
    s.Welcomes spot amount phase ∧ s.Raised spot amount t ∧
      ∃ before, spot.reserve (s.bet spot).atRisk = .ok before ∧
        spot.reserve (t.bet spot).amount = .ok (before + reserved) := by
  unfold place at h
  simp only [bind_eq_ok_iff, require_eq_ok_iff, exists_const, Amount.add_eq_ok_iff,
    Wager.add_eq_ok_iff, Amount.sub_eq_ok_iff, pure_eq_ok_iff] at h
  obtain ⟨⟨hpos, hmost⟩, hopens, ⟨⟩, hallows, w, hw, _, ⟨hlt, rfl⟩, placed, hset, _,
    ⟨hcounter, rfl⟩, before, hbefore, after, hafter, _, ⟨hle, rfl⟩, heq⟩ := h
  cases heq
  obtain ⟨i, hi, -, -⟩ := wager_ok hw
  obtain rfl : s.bet spot = w := bet_of_wager hw
  have hidle : (s.bet spot).rides = false → (s.bet spot).amount = 0 := hs.bet_idle
  have hbet : ∀ other, placed.bet other = if other = spot then (s.bet spot).raised amount
      else s.bet other := bet_setWager hset
  have hself : placed.bet spot = (s.bet spot).raised amount := by rw [hbet, if_pos rfl]
  rw [Wager.amount_raised] at hafter
  refine ⟨⟨hpos, hmost, hopens, hallows, ⟨i, hi⟩, hlt, hcounter, after, hafter⟩, ?_,
    before, hbefore, ?_⟩
  · have howner : placed.owner = s.owner := owner_setWager hset
    have hepoch : placed.epoch = s.epoch := epoch_setWager hset
    have hpending : placed.pending = s.pending := pending_setWager hset
    obtain ⟨hwon, hlost, hpushed⟩ := totals_setWager hset
    constructor
    case wager => exact hself
    case rides =>
      show (placed.bet spot).rides = true
      rw [hself]
      exact Wager.rides_raised hidle hpos hlt
    case stake =>
      show (placed.bet spot).amount = _
      rw [hself, Wager.amount_raised, Wager.atRisk_of_idle hidle]
    case others =>
      intro other hne
      show placed.bet other = _
      rw [hbet, if_neg hne]
    case tracker =>
      intro other
      exact Bonus.of_restart s.trackers other spot
    case wagered => rfl
    case owner => exact howner
    case epoch => exact hepoch
    case pending => exact hpending
    case won => exact hwon
    case lost => exact hlost
    case pushed => exact hpushed
  · show spot.reserve (placed.bet spot).amount = _
    rw [hself, Wager.amount_raised, hafter]
    congr 1
    omega

/-- What a placement asks for is all that it needs. The last subtraction is none of it: more stake
never ties up less. -/
theorem place_of_welcomes (h : s.Welcomes spot amount phase) :
    ∃ placed, s.place spot amount phase = .ok placed := by
  obtain ⟨i, hi⟩ := h.exists_index
  obtain ⟨after, hafter⟩ := h.reserve
  have hw : s.wager spot = .ok (s.bet spot) := by
    rw [wager_of_index hi, bet_of_wager (wager_of_index hi)]
  have hadd : (s.bet spot).add amount = .ok ((s.bet spot).raised amount) :=
    Wager.add_eq_ok_iff.mpr ⟨h.stake, rfl⟩
  have hrisk : (s.bet spot).atRisk ≤ (s.bet spot).amount + amount := by
    unfold Wager.atRisk
    split <;> omega
  obtain ⟨before, hbefore, hle⟩ := Spot.reserve_of_le hrisk hafter
  unfold place
  rw [require_of_true ⟨h.positive, h.most⟩, ok_bind, require_of_true h.opens, ok_bind, h.allows,
    ok_bind, hw, ok_bind, hadd, ok_bind, setWager_of_index hi, ok_bind,
    Amount.add_of_lt h.counter, ok_bind, hbefore, ok_bind, Wager.amount_raised, hafter, ok_bind,
    Amount.sub_eq_ok_iff.mpr ⟨hle, rfl⟩, ok_bind]
  exact ⟨_, rfl⟩

/-! ## One placement after another -/

/-- A placement that was granted, with what it asked of the house. -/
structure Booking where
  spot : Spot
  amount : Nat
  reserved : Nat

namespace Booking

/-- The stake that was placed on a spot. -/
def stakeOn (spot : Spot) (bookings : List Booking) : Nat :=
  ((bookings.filter fun b => b.spot = spot).map Booking.amount).sum

/-- What was asked of the house for it. -/
def reservedOn (spot : Spot) (bookings : List Booking) : Nat :=
  ((bookings.filter fun b => b.spot = spot).map Booking.reserved).sum

variable {b : Booking}

theorem sums_of_eq (h : b.spot = spot) (bookings : List Booking) :
    stakeOn spot (b :: bookings) = b.amount + stakeOn spot bookings ∧
      reservedOn spot (b :: bookings) = b.reserved + reservedOn spot bookings := by
  unfold stakeOn reservedOn
  rw [List.filter_cons_of_pos (by simpa using h)]
  exact ⟨rfl, rfl⟩

theorem sums_of_ne (h : b.spot ≠ spot) (bookings : List Booking) :
    stakeOn spot (b :: bookings) = stakeOn spot bookings ∧
      reservedOn spot (b :: bookings) = reservedOn spot bookings := by
  unfold stakeOn reservedOn
  rw [List.filter_cons_of_neg (by simpa using h)]
  exact ⟨rfl, rfl⟩

theorem sums_of_none {bookings : List Booking} (h : ∀ b ∈ bookings, b.spot ≠ spot) :
    stakeOn spot bookings = 0 ∧ reservedOn spot bookings = 0 := by
  have hnone : bookings.filter (fun b => b.spot = spot) = [] := by
    rw [List.filter_eq_nil_iff]
    intro b hb
    simpa using h b hb
  unfold stakeOn reservedOn
  rw [hnone]
  exact ⟨rfl, rfl⟩

end Booking

/-- What became of a seat by placements on any spots, each in whatever phase the table was in. -/
inductive Bookings : Seat κ → List Booking → Seat κ → Prop where
  | none (s : Seat κ) : Bookings s [] s
  | place {s t u : Seat κ} {b : Booking} {bookings : List Booking} {phase : Phase}
    (h : s.place b.spot b.amount phase = .ok (t, b.reserved)) (rest : Bookings t bookings u) :
    Bookings s (b :: bookings) u

/-- However the stake on a spot is split, what was asked for adds up to what the whole of it ties
up: what one placement leaves tied up is what the next finds. -/
theorem Bookings.reserve_eq {bookings : List Booking} (h : Bookings s bookings u)
    (hs : s.NoIdleStake) (hbet : ∃ b ∈ bookings, b.spot = spot) :
    ∃ before, spot.reserve (s.bet spot).atRisk = .ok before ∧
      spot.reserve ((s.bet spot).atRisk + Booking.stakeOn spot bookings)
        = .ok (before + Booking.reservedOn spot bookings) := by
  induction h with
  | none s =>
    obtain ⟨b, hb, -⟩ := hbet
    cases hb
  | @place s t u b bookings phase hplace rest ih =>
    obtain ⟨-, hraised, before, hbefore, hafter⟩ := place_raised hs hplace
    have ih := ih (hraised.noIdleStake hs)
    by_cases hb : b.spot = spot
    · subst hb
      obtain ⟨hstake, hreserved⟩ := Booking.sums_of_eq (rfl : b.spot = b.spot) bookings
      have hrisk : (t.bet b.spot).atRisk = (s.bet b.spot).atRisk + b.amount := by
        rw [Wager.atRisk_of_rides hraised.rides, hraised.stake]
      rw [hraised.stake, ← hrisk] at hafter
      refine ⟨before, hbefore, ?_⟩
      rw [hstake, hreserved, ← Nat.add_assoc, ← Nat.add_assoc, ← hrisk]
      by_cases hmore : ∃ c ∈ bookings, c.spot = b.spot
      · obtain ⟨now, hnow, hall⟩ := ih hmore
        cases hafter.symm.trans hnow
        exact hall
      · -- this placement was the last one on the spot
        have hlast : ∀ c ∈ bookings, c.spot ≠ b.spot := by
          intro c hc heq
          exact hmore ⟨c, hc, heq⟩
        obtain ⟨hnostake, hnoreserved⟩ := Booking.sums_of_none hlast
        rw [hnostake, hnoreserved]
        exact hafter
    · obtain ⟨hstake, hreserved⟩ := Booking.sums_of_ne hb bookings
      have hmore : ∃ c ∈ bookings, c.spot = spot := by
        obtain ⟨c, hc, hspot⟩ := hbet
        rcases List.mem_cons.mp hc with rfl | hmem
        · exact absurd hspot hb
        · exact ⟨c, hmem, hspot⟩
      rw [hstake, hreserved, ← hraised.others spot (Ne.symm hb)]
      exact ih hmore

/-- A placement reserves exactly and changes nothing else. At a seat whose wagers hold no stake
unless they ride, it is granted exactly where the seat, the spot and the phase welcome it: the
subtraction it ends with is never refused, for more stake on a spot never ties up less. What is
granted raises the wager on its spot and leaves the rest of the seat alone, and it asks for what the
wager ties up now less what it tied up before. So over any placements, on whatever spots and in
whatever phases, what was asked for on a spot adds up to what the whole stake there ties up. -/
theorem placements_reserve_exactly (hs : s.NoIdleStake) :
    (∀ spot amount phase,
      (∃ placed, s.place spot amount phase = .ok placed) ↔ s.Welcomes spot amount phase) ∧
    (∀ (spot : Spot) (stake more before after : Nat), spot.reserve stake = .ok before →
      spot.reserve (stake + more) = .ok after → ∃ rest, Amount.sub after before = .ok rest) ∧
    (∀ spot amount phase t reserved, s.place spot amount phase = .ok (t, reserved) →
      s.Raised spot amount t ∧
        ∃ before, spot.reserve (s.bet spot).atRisk = .ok before ∧
          spot.reserve (t.bet spot).amount = .ok (before + reserved)) ∧
    ∀ bookings t, Bookings s bookings t → ∀ spot, (∃ b ∈ bookings, b.spot = spot) →
      (∃ before, spot.reserve (s.bet spot).atRisk = .ok before ∧
        spot.reserve ((s.bet spot).atRisk + Booking.stakeOn spot bookings)
          = .ok (before + Booking.reservedOn spot bookings)) ∧
      (s.rides spot = false → spot.reserve (Booking.stakeOn spot bookings)
        = .ok (Booking.reservedOn spot bookings)) := by
  refine ⟨?granted, ?subtraction, ?single, ?several⟩
  case granted =>
    intro spot amount phase
    constructor
    · rintro ⟨⟨t, reserved⟩, h⟩
      exact (place_raised hs h).1
    · exact place_of_welcomes
  case subtraction =>
    intro spot stake more before after hbefore hafter
    obtain ⟨less, hless, hle⟩ := Spot.reserve_of_le (Nat.le_add_right stake more) hafter
    cases hbefore.symm.trans hless
    exact ⟨_, Amount.sub_eq_ok_iff.mpr ⟨hle, rfl⟩⟩
  case single =>
    intro spot amount phase t reserved h
    exact (place_raised hs h).2
  case several =>
    intro bookings t h spot hbet
    obtain ⟨before, hbefore, hafter⟩ := h.reserve_eq hs hbet
    refine ⟨⟨before, hbefore, hafter⟩, ?_⟩
    intro hidle
    -- nothing was tied up at first
    rw [rides_eq] at hidle
    rw [Wager.atRisk_of_not_rides hidle, Nat.zero_add] at hafter
    rw [Wager.atRisk_of_not_rides hidle] at hbefore
    cases hbefore.symm.trans (Spot.reserve_zero hafter)
    rwa [Nat.zero_add] at hafter

theorem noIdleStake_blank (owner : κ) : (blank owner).NoIdleStake := by
  intro i _
  rw [wagers_blank]
  rfl

/-- Thirteen on the six in two parts, with another bet between them: seven for six is rounded down
at five and at thirteen. -/
theorem placements_reserve_exactly_splitSix :
    ∃ t : Seat Unit,
      Bookings (blank ()) [⟨.place 6, 5, 5⟩, ⟨.field, 10, 30⟩, ⟨.place 6, 8, 10⟩] t ∧
        (Spot.place 6).reserve 13 = .ok 15 := by
  have heval : (((blank ()).place (.place 6) 5 .comeOut >>= fun a =>
      a.1.place .field 10 .comeOut >>= fun b =>
      b.1.place (.place 6) 8 (.point 4) >>= fun c => .ok (a, b, c)).toOption.map
        (fun r => (r.1.2, r.2.1.2, r.2.2.2))) = some (5, 30, 10) := by
    decide
  obtain ⟨⟨a, b, c⟩, hrun, hreserved⟩ := Option.map_eq_some_iff.mp heval
  have hrun := eq_ok_of_toOption hrun
  simp only [bind_eq_ok_iff] at hrun
  obtain ⟨⟨_, _⟩, ha, ⟨_, _⟩, hb, ⟨t, _⟩, hc, heq⟩ := hrun
  cases heq
  cases hreserved
  have hbookings : Bookings (blank ()) [⟨.place 6, 5, 5⟩, ⟨.field, 10, 30⟩, ⟨.place 6, 8, 10⟩] t :=
    .place ha (.place hb (.place hc (.none t)))
  obtain ⟨-, -, -, hseveral⟩ := placements_reserve_exactly (noIdleStake_blank ())
  obtain ⟨-, hall⟩ := hseveral _ t hbookings (.place 6) ⟨_, List.mem_cons_self, rfl⟩
  exact ⟨t, hbookings, hall rfl⟩

end Seat

/-! ## Wins -/

namespace Spot

/-- What is reserved covers every win. Whatever the phase, the dice, their call, the rule of the
field and the trackers are: if a roll pays a wager, and what is reserved for its stake can be told,
then its profit can be told and is no more than that. Only wagers in a come box travel, each to its
number, and for any stake as much is reserved there as in the box. -/
theorem reserve_covers_wins (spot : Spot) (view : RollView) :
    (∀ odds stake r, spot.verdict view = .ok (.win odds) → spot.reserve stake = .ok r →
      ∃ profit, odds.profit stake = .ok profit ∧ profit ≤ r) ∧
    ∀ n, spot.verdict view = .ok (.travel n) →
      (spot = comeBox ∧ spot.landing n = come n ∨
        spot = dontComeBox ∧ spot.landing n = dontCome n) ∧
      ∀ stake, spot.reserve stake = (spot.landing n).reserve stake := by
  constructor
  · intro odds stake r hwin hr
    obtain ⟨worst, hworst, -, hlt, rfl⟩ := reserve_eq_ok_iff.mp hr
    have hodds : odds.AtMost worst := verdict_win_atMost hwin hworst
    have hle : odds.gain stake ≤ worst.gain stake := Odds.gain_le_gain hodds stake
    exact ⟨_, Odds.profit_eq_ok_iff.mpr ⟨hodds.1, hle.trans_lt hlt, rfl⟩, hle⟩
  · intro n htravel
    rcases verdict_travel htravel with rfl | rfl
    · exact ⟨.inl ⟨rfl, rfl⟩, fun stake => rfl⟩
    · exact ⟨.inr ⟨rfl, rfl⟩, fun stake => rfl⟩

/-- Odds laid against a nine are reserved at the best rate there is, and pay less when the seven
comes; a come bet travels to the five. -/
theorem reserve_covers_wins_laidNine :
    (∃ profit, (⟨2, 3⟩ : Odds).profit 100 = .ok profit ∧ profit ≤ 83) ∧
      comeBox.reserve 100 = (comeBox.landing 5).reserve 100 := by
  constructor
  · obtain ⟨hwins, -⟩ := reserve_covers_wins dontPassOdds
      ⟨.point 9, .ofSquare 5, .sevenOut, false, {}⟩
    exact hwins ⟨2, 3⟩ 100 83 (by decide) (by decide)
  · obtain ⟨-, htravels⟩ := reserve_covers_wins comeBox
      ⟨.point 9, .ofSquare 3, .quiet, false, {}⟩
    exact (htravels 5 (by decide)).2 100

end Spot

end DiceHouse
