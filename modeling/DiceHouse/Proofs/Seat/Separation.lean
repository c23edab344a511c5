import DiceHouse.Proofs.Seat.Fates
import DiceHouse.Proofs.Seat.Tidy

/-!
# Wagers are settled apart from each other

A settlement reads the seat as it was before the roll and writes on a copy, so no spot sees what was
made of another. What rulings and booked totals say of a seat leaves nothing about it open
(`Ruled.unique`), and `Settleable` knows no order; so two walks along different orders end alike,
though on the way they differ in what is cleared and in what the tally holds.

For the tally of one wager the others can be taken away: `Seat.only` leaves it on its spot, together
with the tracker of its bet, which is all that its verdict looks at beside the table and the dice.
-/

namespace DiceHouse

/-! ## What a verdict looks at -/

/-- The tracker of one bet, and no other. -/
def Trackers.only (t : Trackers) : Spot → Trackers
  | .fire => { firePoints := t.firePoints }
  | .small => { smallHits := t.smallHits }
  | .tall => { tallHits := t.tallHits }
  | .all => { allHits := t.allHits }
  | .ride => { rideWins := t.rideWins }
  | _ => {}

theorem Trackers.of_only (t : Trackers) (spot : Spot) : (t.only spot).of spot = t.of spot := by
  cases spot <;> rfl

/-- Two views that a bet cannot tell apart. -/
structure RollView.Alike (view view' : RollView) (spot : Spot) : Prop where
  phase : view'.phase = view.phase
  roll : view'.roll = view.roll
  call : view'.call = view.call
  fieldTriple : view'.fieldTriple = view.fieldTriple
  tracker : view'.trackers.of spot = view.trackers.of spot

/-- A verdict looks at no tracker but that of its own bet. -/
theorem Spot.verdict_congr {spot : Spot} {view view' : RollView} (h : view.Alike view' spot) :
    spot.verdict view' = spot.verdict view := by
  have hsum : view'.sum = view.sum := congrArg Roll.sum h.roll
  have htracker := h.tracker
  cases spot with
  | fire =>
    have hmade : view'.trackers.pointsMade = view.trackers.pointsMade := by
      unfold Trackers.pointsMade
      rw [show view'.trackers.firePoints = view.trackers.firePoints from htracker]
    simp only [verdict, hmade, h.call]
  | small | tall | all | ride =>
    simp only [Trackers.of] at htracker
    simp only [verdict, hsum, htracker, h.call]
  | _ => simp only [verdict, hsum, h.phase, h.roll, h.fieldTriple]

namespace Seat

variable {κ : Type} {s t u : Seat κ} {spot : Spot} {view : RollView} {tally : Tally}

section Tracking

variable {a b a' b' : Seat κ} {call : Call} {sum : Nat}

/-- A roll that one seat can count another can, if it has no fire bet where the first has none. -/
theorem track_of_track (h : a.track call sum = .ok a')
    (hfire : b.rides .fire = true → a.rides .fire = true) : ∃ b', b.track call sum = .ok b' := by
  obtain ⟨point, hit, hpoint, hhit, -⟩ := Bonus.track_eq h
  unfold track
  dsimp only
  rw [hhit]
  split
  · next hr =>
    rw [hpoint (hfire hr)]
    exact ⟨_, rfl⟩
  · exact ⟨_, rfl⟩

/-- The tracker of a bet that rides counts the roll in the same way at two seats. -/
theorem tracker_of_track (ha : a.track call sum = .ok a') (hb : b.track call sum = .ok b')
    (hra : a.rides spot = true) (hrb : b.rides spot = true)
    (htracker : b.trackers.of spot = a.trackers.of spot) :
    b'.trackers.of spot = a'.trackers.of spot := by
  obtain ⟨point, hit, hpoint, hhit, rfl⟩ := Bonus.track_eq ha
  obtain ⟨point', hit', hpoint', hhit', rfl⟩ := Bonus.track_eq hb
  cases hhit.symm.trans hhit'
  cases spot with
  | fire =>
    cases (hpoint hra).symm.trans (hpoint' hrb)
    exact congrArg (· ||| point) htracker
  | small | tall | all | ride =>
    simp only [Trackers.of] at htracker
    simp only [Trackers.of, hra, hrb, htracker]
  | _ => rfl

end Tracking

/-! ## Orders of the spots -/

/-- Rulings and booked totals leave nothing about a seat open. -/
theorem Ruled.unique {tally' : Tally} (ht : s.Ruled view t tally) (hu : s.Ruled view u tally')
    (htbook : s.Credited tally t) (hubook : s.Credited tally' u) : t = u ∧ tally = tally' := by
  obtain rfl : tally = tally' := ht.tally.trans hu.tally.symm
  have hbet : ∀ spot, t.bet spot = u.bet spot := by
    intro spot
    rcases s.unvisited_or_arrives view spot with hspot | ⟨box, n, hn, rfl⟩
    · rw [ht.stays spot hspot, hu.stays spot hspot]
    · rw [ht.arrives box n hn, hu.arrives box n hn]
  have hwagers : t.wagers = u.wagers := by
    refine Vector.ext fun i hi => ?_
    have hi := hbet (Spot.ofIndex ⟨i, hi⟩)
    rwa [bet_ofIndex, bet_ofIndex] at hi
  have htrackers : t.trackers = u.trackers := by
    rw [ht.trackers, hu.trackers]
    unfold restTrackers rides
    rw [hwagers]
  exact ⟨htbook.unique hubook hwagers htrackers, rfl⟩

section Orders

variable {order : List Spot} {phase : Phase} {roll : Roll} {fieldTriple : Bool}

/-- The order in which a settlement goes through the spots does not show. -/
theorem settleAlong_of_perm (hs : s.Orderly) (horder : order.Perm Spot.order)
    (h : s.settle phase roll fieldTriple = .ok (t, tally)) :
    settleAlong order s phase roll fieldTriple = .ok (t, tally) := by
  obtain ⟨view, hseen, hset⟩ := settleable_of_settleAlong hs (.refl _) h
  obtain ⟨u, hu⟩ := settleAlong_of_settleable hs horder hseen hset
  obtain ⟨viewt, hseent, hruledt⟩ := settleAlong_ruled hs (.refl _) h
  obtain ⟨viewu, hseenu, hruledu⟩ := settleAlong_ruled hs horder hu
  cases hseent.symm.trans hseenu
  obtain ⟨rfl, -⟩ := hruledt.unique hruledu (settle_credited h) (settleAlong_credited hu)
  exact hu

end Orders

/-! ## One wager by itself -/

/-- A seat with nothing but the wager on one spot, and the tracker of that bet. -/
def only (s : Seat κ) (spot : Spot) : Seat κ := { blank s.owner with
  wagers := Vector.ofFn fun i => if Spot.ofIndex i = spot then s.wagers.get i else .blank
  trackers := s.trackers.only spot }

theorem wagers_only (i : Fin spotCount) : (s.only spot).wagers.get i
    = if Spot.ofIndex i = spot then s.wagers.get i else .blank :=
  Vector.getElem_ofFn i.isLt

theorem bet_only_self : (s.only spot).bet spot = s.bet spot := by
  unfold bet
  cases hi : spot.index? with
  | some i =>
    dsimp only
    rw [wagers_only, if_pos (Spot.ofIndex_of_index? hi)]
  | none => rfl

theorem bet_only_of_ne {other : Spot} (hne : other ≠ spot) : (s.only spot).bet other = .blank := by
  unfold bet
  cases hi : other.index? with
  | some i =>
    dsimp only
    rw [wagers_only, Spot.ofIndex_of_index? hi, if_neg hne]
  | none => rfl

/-- What rides there is the one wager. -/
theorem eq_of_rides_only {other : Spot} (hr : ((s.only spot).bet other).rides = true) :
    other = spot := by
  by_contra hne
  rw [bet_only_of_ne hne] at hr
  cases hr

theorem Orderly.only (hs : s.Orderly) (spot : Spot) : (s.only spot).Orderly := by
  have hrides : ∀ {other}, s.rides other = false → (s.only spot).rides other = false := by
    intro other hr
    rw [rides_eq] at hr ⊢
    by_cases hc : other = spot
    · rw [hc, bet_only_self, ← hc, hr]
    · rw [bet_only_of_ne hc]
      rfl
  refine ⟨fun i => ?_, hrides hs.yes, hrides hs.no⟩
  rw [wagers_only]
  split
  · exact hs.idle i
  · exact fun _ => rfl

section Alone

variable {phase : Phase} {roll : Roll} {fieldTriple : Bool} {view' : RollView}

/-- The wager sees at a seat of its own what it sees among others. -/
theorem seen_only (hr : (s.bet spot).rides = true) (h : s.seen phase roll fieldTriple = .ok view) :
    ∃ view', (s.only spot).seen phase roll fieldTriple = .ok view' ∧ view.Alike view' spot := by
  unfold seen at h
  simp only [bind_eq_ok_iff, pure_eq_ok_iff] at h
  obtain ⟨t, htrack, rfl⟩ := h
  have hfire : (s.only spot).rides .fire = true → s.rides .fire = true := by
    intro hfire
    rw [rides_eq] at hfire ⊢
    rw [eq_of_rides_only hfire, hr]
  obtain ⟨u, hu⟩ := track_of_track htrack hfire
  let view' : RollView :=
    { phase, roll, call := (phase.step roll.sum).2, fieldTriple, trackers := u.trackers }
  refine ⟨view', ?_, rfl, rfl, rfl, rfl, ?_⟩
  · unfold seen
    dsimp only
    rw [hu]
    rfl
  · refine tracker_of_track htrack hu ?_ ?_ (s.trackers.of_only spot)
    · rw [rides_eq, hr]
    · rw [rides_eq, bet_only_self, hr]

theorem ruling_only (h : view.Alike view' spot) :
    (s.only spot).ruling view' spot = s.ruling view spot := by
  unfold ruling
  rw [bet_only_self, Spot.verdict_congr h]

theorem share_only (h : view.Alike view' spot) :
    (s.only spot).share view' spot = s.share view spot := by
  unfold share
  rw [ruling_only h, bet_only_self]

/-- What could be settled among others can be by itself. -/
theorem Settleable.only (h : s.Settleable view tally) (hs : s.Orderly)
    (hr : (s.bet spot).rides = true) (halike : view.Alike view' spot) :
    (s.only spot).Settleable view' (s.share view spot) := by
  obtain ⟨i, -, hi, -⟩ := wager_ok (wager_of_rides hr)
  have hfits : (s.share view spot).Fits := by
    have htally := h.sum.trans (hs.sum_share view)
    rw [← Finset.add_sum_erase _ _ (Finset.mem_univ i), hi] at htally
    exact (htally ▸ h.fits).of_add
  constructor
  case decided =>
    intro other hother
    cases eq_of_rides_only hother
    rw [ruling_only halike, Spot.verdict_congr halike]
    exact h.decided spot hr
  case told =>
    intro other hother
    cases eq_of_rides_only hother
    rw [ruling_only halike, bet_only_self]
    exact h.told spot hr
  case sum =>
    rw [(hs.only spot).sum_share, Finset.sum_eq_single i, hi, share_only halike]
    · intro j _ hne
      have hother : Spot.ofIndex j ≠ spot := fun hc => hne (Spot.ofIndex_inj (hc.trans hi.symm))
      refine share_of_not_rides ?_
      rw [bet_only_of_ne hother]
      rfl
    · exact fun hc => absurd (Finset.mem_univ i) hc
  case fits => exact hfits
  case lands =>
    intro box n hn
    cases eq_of_rides_only (travel_of_ruling hn).1
    rw [ruling_only halike] at hn
    rw [bet_only_self]
    exact h.lands spot n hn
  case pending =>
    show 0 + (s.share view spot).credited < Amount.limit
    rw [Nat.zero_add]
    exact hfits.credited
  case counters =>
    show 0 + (s.share view spot).profit < Amount.limit ∧ 0 + (s.share view spot).lost < Amount.limit
      ∧ 0 + (s.share view spot).pushed < Amount.limit
    rw [Nat.zero_add, Nat.zero_add, Nat.zero_add]
    exact ⟨hfits.profit, hfits.lost, hfits.pushed⟩

end Alone

/-! ## The whole settlement -/

variable {phase : Phase} {roll : Roll} {fieldTriple : Bool}

/-- The wagers of a seat are settled apart from each other. Going through the spots in another order
comes to the same seat and the same tally. And the tally is the sum of those that the wagers have
one by one, each at a seat that holds nothing else, with the tracker of its own bet. -/
theorem settled_apart (hs : s.Orderly) (h : s.settle phase roll fieldTriple = .ok (t, tally)) :
    (∀ order : List Spot, order.Perm Spot.order →
      settleAlong order s phase roll fieldTriple = .ok (t, tally)) ∧
    ∃ alone : Spot → Tally,
      (∀ spot, s.rides spot = true →
        ∃ u, (s.only spot).settle phase roll fieldTriple = .ok (u, alone spot)) ∧
      tally = ∑ i ∈ Finset.univ.filter (fun i : Fin spotCount => s.rides (Spot.ofIndex i) = true),
        alone (Spot.ofIndex i) := by
  refine ⟨fun order horder => settleAlong_of_perm hs horder h, ?_⟩
  obtain ⟨view, hseen, hset⟩ := settleable_of_settleAlong hs (.refl _) h
  refine ⟨s.share view, fun spot hr => ?_, ?_⟩
  · rw [rides_eq] at hr
    obtain ⟨view', hseen', halike⟩ := seen_only hr hseen
    exact settleAlong_of_settleable (hs.only spot) (.refl _) hseen' (hset.only hs hr halike)
  · rw [hset.sum, hs.sum_share]
    refine (Finset.sum_filter_of_ne fun i _ hne => ?_).symm
    by_contra hr
    refine hne (share_of_not_rides ?_)
    rwa [← rides_eq, ← Bool.not_eq_true]

/-- The crowded seat, settled the other way round. -/
theorem settled_apart_crowded :
    ∃ t tally, crowded.settle (.point 6) ⟨3, 1, 4⟩ false = .ok (t, tally) ∧
      settleAlong Spot.order.reverse crowded (.point 6) ⟨3, 1, 4⟩ false = .ok (t, tally) ∧
      ∃ u alone, (crowded.only (.come 5)).settle (.point 6) ⟨3, 1, 4⟩ false = .ok (u, alone) ∧
        alone.credited = 400 := by
  have heval : (crowded.settle (.point 6) ⟨3, 1, 4⟩ false).toOption.isSome = true := by
    decide +kernel
  obtain ⟨⟨t, tally⟩, hrun⟩ := Option.isSome_iff_exists.mp heval
  have hsettle := eq_ok_of_toOption hrun
  obtain ⟨horders, alone, halone, -⟩ := settled_apart orderly_crowded hsettle
  obtain ⟨u, hu⟩ := halone (.come 5) (by decide +kernel)
  have hcredited : ((crowded.only (.come 5)).settle (.point 6) ⟨3, 1, 4⟩ false).toOption.map
      (fun r => r.2.credited) = some 400 := by decide +kernel
  rw [hu] at hcredited
  exact ⟨t, tally, hsettle, horders _ (List.reverse_perm _), u, _, hu, Option.some.inj hcredited⟩

end Seat

end DiceHouse
