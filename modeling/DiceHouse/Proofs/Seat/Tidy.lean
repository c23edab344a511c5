import DiceHouse.Proofs.Seat.Bonus

/-!
# What a seat keeps in order

A wager holds stake exactly while it is open, the race on the seven is never bet on, a bonus bet that
does not ride has no tracker, and the tracker of one that rides is short of what decides it.
`Seat.Tidy` says so of a seat; placing, settling and forfeiting keep it, so that it holds of every seat
that was blank once. `Seat.Career` is how a seat comes about by these three. A settlement also ends
every bet on a single roll and empties the boxes, since no roll leaves them open.
-/

namespace DiceHouse

/-! ## Wagers -/

namespace Wager

/-- The wager holds stake exactly while it is open. -/
def Tidy (w : Wager) : Prop := 0 < w.amount ↔ w.stage = .fresh ∨ w.stage = .carried

variable {w : Wager}

theorem tidy_blank : blank.Tidy := by
  unfold Tidy
  decide

theorem tidy_cleared (ending : WagerEnding) : (cleared ending).Tidy := by
  refine iff_of_false (Nat.lt_irrefl 0) ?_
  show ¬(WagerStage.cleared = .fresh ∨ WagerStage.cleared = .carried)
  decide

theorem tidy_of_rides (h : w.rides = true) : w.Tidy := by
  unfold rides at h
  simp only [Bool.and_eq_true, decide_eq_true_eq, Bool.or_eq_true, beq_iff_eq] at h
  exact iff_of_true h.1 h.2

theorem Tidy.carry (h : w.Tidy) : w.carry.Tidy := by
  by_cases hr : w.rides = true
  · exact tidy_of_rides ((rides_carry w).trans hr)
  · rwa [carry_of_not_rides (by simpa using hr)]

end Wager

/-- Whatever a verdict leaves of a wager that is in order is in order. -/
theorem Verdict.tidy_leaves {w : Wager} (h : w.Tidy) (verdict : Verdict) :
    (verdict.leaves w).Tidy := by
  cases verdict with
  | carry => exact h.carry
  | win | lose | push | travel => exact Wager.tidy_cleared _

/-! ## Bets that end with the next roll -/

namespace Spot

/-- The bets on a single roll, and the boxes. -/
def lastsOneRoll : Spot → Bool
  | field | anySeven | anyCraps | yo | aces | twelve | next _ | comeBox | dontComeBox => true
  | _ => false

variable {spot : Spot} {view : RollView}

/-- No roll leaves a bet on a single roll open, nor a wager in its box. -/
theorem verdict_ne_carry (h : spot.lastsOneRoll = true) : spot.verdict view ≠ .ok .carry := by
  intro hcarry
  cases spot with
  | field | anySeven | anyCraps | yo | aces | twelve | next | comeBox | dontComeBox =>
    simp only [verdict] at hcarry
    repeat' split at hcarry
    all_goals
      simp only [map_eq_ok_iff, Except.ok.injEq, reduceCtorEq, and_false, exists_false] at hcarry
  | _ => cases h

theorem lastsOneRoll_landing (box : Spot) (n : Nat) : (box.landing n).lastsOneRoll = false := by
  unfold landing
  split
  · rfl
  · rfl

end Spot

/-! ## Trackers -/

/-- The tracker of a bonus bet. -/
def Trackers.of (t : Trackers) : Spot → Nat
  | .fire => t.firePoints
  | .small => t.smallHits
  | .tall => t.tallHits
  | .all => t.allHits
  | .ride => t.rideWins
  | _ => 0

namespace Bonus

/-- What a tracker never holds: the seven among the sums, more than the six points. -/
def Shaped (spot : Spot) (n : Nat) : Prop :=
  match spot with
  | .fire => n < Nat.pow 2 6
  | .small | .tall | .all => n.testBit (7 - 2) = false
  | _ => True

/-- The tracker is short of what decides the bet. -/
def Short (spot : Spot) (n : Nat) : Prop :=
  match spot with
  | .fire => (List.range 8).countP n.testBit ≤ 5
  | .small => n &&& Trackers.smallMask ≠ Trackers.smallMask
  | .tall => n &&& Trackers.tallMask ≠ Trackers.tallMask
  | .all => n &&& Trackers.allMask ≠ Trackers.allMask
  | _ => True

variable {κ : Type} {s u : Seat κ} {spot other : Spot} {call : Call} {sum n hit : Nat}
  {view : RollView}

theorem shaped_zero (spot : Spot) : Shaped spot 0 := by
  cases spot with
  | fire => exact Nat.pow_pos (by decide)
  | small | tall | all => exact Nat.zero_testBit _
  | _ => trivial

theorem short_zero (spot : Spot) : Short spot 0 := by
  cases spot with
  | fire | small | tall | all => unfold Short; decide
  | _ => trivial

/-- A seven has no place among the sums. -/
theorem testBit_sumBit (h : Seat.sumBit sum = .ok hit) : hit.testBit (7 - 2) = false := by
  unfold Seat.sumBit at h
  split at h
  · cases h
    exact Nat.zero_testBit _
  · next hseven =>
    split at h
    · next i hi =>
      cases h
      have hsum : sum = i.val + 2 := Dice.sumIndex?_eq_some_iff.mp hi
      rw [testBit_one_shiftLeft, decide_eq_false_iff_not]
      omega
    · cases h

/-- The place of a point is one of six. -/
theorem pointBit_lt (h : Seat.pointBit call = .ok hit) : hit < Nat.pow 2 6 := by
  unfold Seat.pointBit at h
  split at h
  · split at h
    · next i hi =>
      cases h
      rw [Nat.one_shiftLeft]
      exact Nat.pow_lt_pow_right (by decide) i.isLt
    · cases h
  · cases h
    exact Nat.pow_pos (by decide)

/-- The shape of a tracker stays when a roll is counted. -/
theorem Shaped.track (h : ∀ spot, Shaped spot (s.trackers.of spot))
    (htrack : s.track call sum = .ok u) :
    ∀ spot, s.rides spot = true → Shaped spot (u.trackers.of spot) := by
  obtain ⟨point, hit, hpoint, hhit, rfl⟩ := track_eq htrack
  intro spot hr
  have hspot := h spot
  cases spot with
  | fire => exact Nat.or_lt_two_pow hspot (pointBit_lt (hpoint hr))
  | small | tall | all =>
    simp only [Shaped, Trackers.of, hr, if_true] at hspot ⊢
    rw [Nat.testBit_or, hspot, testBit_sumBit hhit]
    rfl
  | _ => trivial

/-- A roll that leaves a bonus bet open leaves its tracker short of what decides it. -/
theorem short_of_carry (h : spot.verdict view = .ok .carry) :
    Short spot (view.trackers.of spot) := by
  cases spot with
  | small | tall | all =>
    simp only [Spot.verdict, Spot.hitsVerdict, Except.ok.injEq] at h
    repeat' split at h
    all_goals first | assumption | cases h
  | fire =>
    simp only [Spot.verdict] at h
    show view.trackers.pointsMade ≤ 5
    split at h
    · split at h
      · cases h
      · next hopen => omega
    · next hnone =>
      unfold Odds.fire at hnone
      repeat' split at hnone
      all_goals first | omega | cases hnone
  | _ => trivial

/-- A tracker is set back when its bet no longer rides. -/
theorem of_restTrackers (hspot : spot ∈ tracked) :
    s.restTrackers.trackers.of spot = if s.rides spot then s.trackers.of spot else 0 := by
  unfold tracked at hspot
  simp only [List.mem_cons, List.not_mem_nil, or_false] at hspot
  rcases hspot with rfl | rfl | rfl | rfl | rfl
  all_goals rfl

/-- A tracker starts at nothing when its bet is placed, and placing another leaves it. -/
theorem of_restart (t : Trackers) (spot other : Spot) :
    (t.restart other).of spot = if spot = other then 0 else t.of spot := by
  cases other with
  | fire | small | tall | all | ride => cases spot <;> rfl
  | _ => cases spot <;> simp [Trackers.restart, Trackers.of]

end Bonus

/-! ## Seats -/

namespace Seat

open Bonus

variable {κ : Type} {s t : Seat κ} {spot : Spot} {amount : Nat} {phase : Phase} {tally : Tally}

/-- Every wager is in order, and so is every tracker. -/
structure Tidy (s : Seat κ) : Prop where
  wagers : ∀ spot, (s.bet spot).Tidy
  shaped : ∀ spot, Shaped spot (s.trackers.of spot)
  idle : ∀ spot ∈ tracked, (s.bet spot).rides = false → s.trackers.of spot = 0
  short : ∀ spot ∈ tracked, (s.bet spot).rides = true → Short spot (s.trackers.of spot)

theorem tidy_blank (owner : κ) : (blank owner).Tidy := by
  refine ⟨fun spot => ?_, fun spot => ?_, fun spot hspot _ => ?_, fun spot _ hr => ?_⟩
  · rw [bet_blank]
    exact Wager.tidy_blank
  · cases spot <;> exact shaped_zero _
  · cases spot <;> rfl
  · rw [bet_blank] at hr
    cases hr

/-- A bet that is placed is open, and if it is a bonus bet it has seen nothing. -/
theorem Tidy.place (h : s.Tidy) (hstaked : s.Staked spot amount phase t) : t.Tidy := by
  have hof : ∀ other, t.trackers.of other = if other = spot then 0 else s.trackers.of other := by
    intro other
    rw [hstaked.trackers]
    exact of_restart s.trackers other spot
  refine ⟨fun other => ?_, fun other => ?_, fun other hother hr => ?_, fun other hother hr => ?_⟩
  all_goals by_cases hc : other = spot
  · subst hc
    exact Wager.tidy_of_rides hstaked.rides
  · rw [hstaked.others other hc]
    exact h.wagers other
  · rw [hof, if_pos hc]
    exact shaped_zero other
  · rw [hof, if_neg hc]
    exact h.shaped other
  · rw [hof, if_pos hc]
  · rw [hstaked.others other hc] at hr
    rw [hof, if_neg hc]
    exact h.idle other hother hr
  · rw [hof, if_pos hc]
    exact short_zero other
  · rw [hstaked.others other hc] at hr
    rw [hof, if_neg hc]
    exact h.short other hother hr

/-! ### Settling -/

section Settling

variable {view : RollView} {roll : Roll} {fieldTriple : Bool}

/-- No wager travels to where a bonus bet is. -/
theorem landing_ne_of_tracked (hspot : spot ∈ tracked) (box : Spot) (n : Nat) :
    box.landing n ≠ spot := by
  rintro rfl
  unfold Spot.landing at hspot
  split at hspot <;> simp [tracked] at hspot

theorem Ruled.tidy_bet (h : s.Ruled view t tally) (hs : s.Tidy) (spot : Spot) :
    (t.bet spot).Tidy := by
  by_cases harrives : ∃ box n, s.ruling view box = .travel n ∧ box.landing n = spot
  · obtain ⟨box, n, htravel, rfl⟩ := harrives
    rw [h.arrives box n htravel]
    have hpos := Wager.pos_of_rides (travel_of_ruling htravel).1
    exact Wager.tidy_of_rides (Wager.rides_arrived hpos)
  · rw [h.stays spot fun box n htravel hc => harrives ⟨box, n, htravel, hc⟩]
    exact Verdict.tidy_leaves (hs.wagers spot) _

/-- After a settlement the tracker of a bonus bet that rides has counted the roll, and that of any
other is set back. -/
theorem Ruled.tracker (h : s.Ruled view t tally) (hspot : spot ∈ tracked) :
    t.trackers.of spot = if (t.bet spot).rides then view.trackers.of spot else 0 := by
  rw [h.trackers, of_restTrackers hspot, rides_eq]
  rfl

/-- A roll keeps a seat in order: what it leaves open is short of being decided. -/
theorem Tidy.settle (h : s.Tidy) (hs : s.Sound)
    (hsettle : s.settle phase roll fieldTriple = .ok (t, tally)) : t.Tidy := by
  obtain ⟨view, hseen, hruled⟩ := settle_ruled hs hsettle
  obtain ⟨-, -, -, u, htrack, htrackers⟩ := seen_ok hseen
  have hopen : ∀ spot ∈ tracked, (t.bet spot).rides = true →
      (s.bet spot).rides = true ∧ spot.verdict view = .ok .carry := by
    intro spot hspot hr
    obtain ⟨hrides, hverdict, -⟩ :=
      hruled.left_open (fun box n _ => landing_ne_of_tracked hspot box n) hr
    exact ⟨hrides, hverdict⟩
  refine ⟨hruled.tidy_bet h, fun spot => ?_, fun spot hspot hr => ?_, fun spot hspot hr => ?_⟩
  · by_cases hspot : spot ∈ tracked
    · rw [hruled.tracker hspot]
      split
      · next hr =>
        rw [htrackers]
        exact Shaped.track h.shaped htrack spot ((rides_eq s spot).trans (hopen spot hspot hr).1)
      · exact shaped_zero spot
    · cases spot with
      | fire | small | tall | all => simp [tracked] at hspot
      | _ => trivial
  · rw [hruled.tracker hspot, hr]
    rfl
  · rw [hruled.tracker hspot, hr, if_pos rfl]
    exact short_of_carry (hopen spot hspot hr).2

/-- A roll ends the bets on a single roll and empties the boxes. -/
theorem settle_ends (hs : s.Sound) (hsettle : s.settle phase roll fieldTriple = .ok (t, tally))
    (hspot : spot.lastsOneRoll = true) : (t.bet spot).rides = false := by
  obtain ⟨view, -, hruled⟩ := settle_ruled hs hsettle
  by_contra hr
  have hbox : ∀ box n, s.ruling view box = .travel n → box.landing n ≠ spot := by
    rintro box n - rfl
    rw [Spot.lastsOneRoll_landing] at hspot
    cases hspot
  obtain ⟨-, hverdict, -⟩ := hruled.left_open hbox (by simpa using hr)
  exact Spot.verdict_ne_carry hspot hverdict

end Settling

/-! ### Forfeiting -/

/-- How far a forfeiture has come with the wagers. -/
structure Surrendered (before : Seat κ) (rest : List Spot) (q : Seat κ × Tally) : Prop where
  ahead : ∀ spot ∈ rest, q.1.bet spot = before.bet spot
  behind : ∀ spot, spot ∉ rest →
    q.1.bet spot = if (before.bet spot).rides then .cleared .lost else before.bet spot
  nodup : rest.Nodup

theorem Surrendered.surrender {before : Seat κ} {rest : List Spot} {q q' : Seat κ × Tally}
    (h : Surrendered before (spot :: rest) q) (hj : Seat.surrender before q spot = .ok q') :
    Surrendered before rest q' := by
  obtain ⟨hspot, hnodup⟩ := List.nodup_cons.mp h.nodup
  obtain ⟨w, hw, hstep⟩ := surrender_ok hj
  obtain rfl : before.bet spot = w := bet_of_wager hw
  have hbet : ∀ other, q'.1.bet other = if other = spot then
      (if (before.bet spot).rides then .cleared .lost else before.bet spot)
        else q.1.bet other := by
    intro other
    rcases hstep with ⟨hr, rfl⟩ | ⟨hr, tally, seat, -, hset, rfl⟩
    · split
      · next hc =>
        rw [hc, h.ahead spot List.mem_cons_self, if_neg (by simp [hr])]
      · rfl
    · rw [if_pos hr]
      exact bet_setWager hset other
  refine ⟨fun other ho => ?_, fun other ho => ?_, hnodup⟩
  · have hne : other ≠ spot := fun hc => hspot (hc ▸ ho)
    rw [hbet, if_neg hne]
    exact h.ahead other (List.mem_cons_of_mem _ ho)
  · rw [hbet]
    split
    · next hc => rw [hc]
    · next hc =>
      refine h.behind other fun hmem => ?_
      rcases List.mem_cons.mp hmem with hfirst | hrest
      · exact hc hfirst
      · exact ho hrest

/-- A forfeiture clears every wager that rides and sets back all trackers. -/
theorem forfeit_leaves {settled : Seat κ × Tally} (hs : s.Sound) (h : s.forfeit = .ok settled) :
    (∀ spot, settled.1.bet spot
      = if (s.bet spot).rides then .cleared .lost else s.bet spot) ∧
      settled.1.trackers = {} := by
  unfold forfeit at h
  simp only [bind_eq_ok_iff, pure_eq_ok_iff] at h
  obtain ⟨q, hq, t, hbook, rfl⟩ := h
  have hend : Surrendered s [] q := by
    refine foldlM_induction (Surrendered s) (fun spot rest q q' hinv => hinv.surrender) ?_ hq
    refine ⟨fun _ _ => rfl, fun spot hspot => ?_, order_nodup⟩
    -- what no roll decides does not ride
    rw [if_neg fun hr => hspot (hs.mem_order hr)]
  have hbet : ∀ spot, q.1.bet spot
      = if (s.bet spot).rides then .cleared .lost else s.bet spot :=
    fun spot => hend.behind spot List.not_mem_nil
  have hnone : ∀ spot, q.1.rides spot = false := by
    intro spot
    rw [rides_eq, hbet]
    split
    · rfl
    · next hr => simpa using hr
  refine ⟨fun spot => ?_, ?_⟩
  · rw [← hbet]
    exact bet_congr (book_ok hbook).1 spot
  · unfold book at hbook
    simp only [bind_eq_ok_iff, pure_eq_ok_iff] at hbook
    obtain ⟨-, -, -, -, -, -, -, -, rfl⟩ := hbook
    show q.1.restTrackers.trackers = {}
    unfold restTrackers
    simp only [hnone, Bool.false_eq_true, if_false]

theorem Tidy.forfeit {settled : Seat κ × Tally} (h : s.Tidy) (hs : s.Sound)
    (hforfeit : s.forfeit = .ok settled) : settled.1.Tidy := by
  obtain ⟨hbet, htrackers⟩ := forfeit_leaves hs hforfeit
  have hzero : ∀ spot, settled.1.trackers.of spot = 0 := by
    intro spot
    rw [htrackers]
    cases spot <;> rfl
  refine ⟨fun spot => ?_, fun spot => ?_, fun spot _ _ => hzero spot, fun spot _ _ => ?_⟩
  · rw [hbet]
    split
    · exact Wager.tidy_cleared _
    · exact h.wagers spot
  · rw [hzero]
    exact shaped_zero spot
  · rw [hzero]
    exact short_zero spot

/-! ## Careers -/

/-- The seat that another became by bets that were asked for, settlements against the rolls of a
table, and forfeitures; what is refused leaves no trace. A seat with nothing riding may pass rolls
by, and one that is forfeited may have missed some. -/
inductive Career (phase : Phase) (s : Seat κ) : List Roll → Seat κ → Prop
  | start : Career phase s [] s
  | bet {rolls : List Roll} {t : Seat κ} {kind : Spot.Kind} {number amount : Nat} {spot : Spot}
    {placed : Seat κ × Nat} (h : Career phase s rolls t)
    (hrequest : Spot.ofRequest kind number = .ok spot)
    (hplace : t.place spot amount (phase.along rolls) = .ok placed) :
    Career phase s rolls placed.1
  | settle {rolls : List Roll} {t : Seat κ} {roll : Roll} {fieldTriple : Bool}
    {settled : Seat κ × Tally} (h : Career phase s rolls t)
    (hsettle : t.settle (phase.along rolls) roll fieldTriple = .ok settled) :
    Career phase s (rolls ++ [roll]) settled.1
  | pass {rolls : List Roll} {t : Seat κ} (roll : Roll) (h : Career phase s rolls t)
    (hidle : t.hasRiding = false) : Career phase s (rolls ++ [roll]) t
  | forfeit {rolls : List Roll} {t : Seat κ} {cleared : Seat κ × Tally} (missed : List Roll)
    (h : Career phase s rolls t) (hforfeit : t.forfeit = .ok cleared) :
    Career phase s (rolls ++ missed) cleared.1

variable {owner : κ} {rolls : List Roll}

theorem Career.sound (h : Career phase s rolls t) (hs : s.Sound) : t.Sound := by
  induction h with
  | start => exact hs
  | bet _ _ hplace ih => exact (place_ok ih hplace).sound
  | settle _ hsettle ih => exact (settle_ok ih hsettle).sound
  | pass _ _ _ ih => exact ih
  | forfeit _ _ hforfeit ih => exact (forfeit_ok ih hforfeit).sound

theorem Career.tidy (h : Career phase s rolls t) (hs : s.Sound) (hstart : s.Tidy) : t.Tidy := by
  induction h with
  | start => exact hstart
  | bet hcareer _ hplace ih => exact ih.place (place_staked (hcareer.sound hs) hplace)
  | settle hcareer hsettle ih => exact ih.settle (hcareer.sound hs) hsettle
  | pass _ _ _ ih => exact ih
  | forfeit _ hcareer hforfeit ih => exact ih.forfeit (hcareer.sound hs) hforfeit

/-- A seat that was blank once holds stake exactly on its open wagers and has none on the race on the
seven; the tracker of a bonus bet is nothing unless the bet rides, and is then short of what decides
it. A settlement ends the bets on a single roll and empties the boxes. -/
theorem seat_stays_tidy (h : Career phase (blank owner) rolls s) :
    (∀ i : Fin spotCount, 0 < (s.wagers.get i).amount ↔
      (s.wagers.get i).stage = .fresh ∨ (s.wagers.get i).stage = .carried) ∧
    s.rides (.yes 7) = false ∧ s.rides (.no 7) = false ∧
    (∀ spot ∈ tracked, s.rides spot = false → s.trackers.of spot = 0) ∧
    (s.rides .fire = true → s.trackers.firePoints < Nat.pow 2 6 ∧ s.trackers.pointsMade ≤ 5) ∧
    (∀ spot mask, (spot, mask) ∈ [(Spot.small, Trackers.smallMask), (.tall, Trackers.tallMask),
        (.all, Trackers.allMask)] →
      s.rides spot = true → (s.trackers.of spot).testBit (7 - 2) = false ∧
        s.trackers.of spot &&& mask ≠ mask) ∧
    ∀ roll fieldTriple settled, s.settle (phase.along rolls) roll fieldTriple = .ok settled →
      ∀ spot : Spot, spot.lastsOneRoll = true → settled.1.rides spot = false := by
  have hsound : s.Sound := h.sound (sound_blank owner)
  have htidy : s.Tidy := h.tidy (sound_blank owner) (tidy_blank owner)
  have hseven : ∀ spot, spot ∉ Spot.order → s.rides spot = false := by
    intro spot hspot
    rw [rides_eq]
    by_contra hr
    exact hspot (hsound.mem_order (by simpa using hr))
  refine ⟨fun i => ?_, hseven _ (by decide), hseven _ (by decide), fun spot hspot hr => ?_,
    fun hr => ?_, fun spot mask hmem hr => ?_, fun roll fieldTriple settled hsettle spot hspot => ?_⟩
  · have hbet : s.bet (Spot.ofIndex i) = s.wagers.get i :=
      bet_of_wager (wager_of_index (Spot.index?_ofIndex i))
    exact hbet ▸ htidy.wagers (Spot.ofIndex i)
  · rw [rides_eq] at hr
    exact htidy.idle spot hspot hr
  · rw [rides_eq] at hr
    exact ⟨htidy.shaped .fire, htidy.short .fire (by decide) hr⟩
  · rw [rides_eq] at hr
    simp only [List.mem_cons, Prod.mk.injEq, List.not_mem_nil, or_false] at hmem
    rcases hmem with ⟨rfl, rfl⟩ | ⟨rfl, rfl⟩ | ⟨rfl, rfl⟩
    · exact ⟨htidy.shaped .small, htidy.short .small (by decide) hr⟩
    · exact ⟨htidy.shaped .tall, htidy.short .tall (by decide) hr⟩
    · exact ⟨htidy.shaped .all, htidy.short .all (by decide) hr⟩
  · rw [rides_eq]
    exact settle_ends hsound hsettle hspot

/-- After a forfeiture, with bonus bets that have counted two rolls and a come bet that travelled. -/
theorem seat_stays_tidy_midway :
    ∃ s : Seat Unit, Career .comeOut (blank ()) [.ofSquare 2, .ofSquare 3] s ∧
      s.rides .small = true ∧ s.rides (.come 5) = true ∧ s.trackers.smallHits = 12 ∧
      12 &&& Trackers.smallMask ≠ Trackers.smallMask ∧ s.trackers.allHits = 0 := by
  have heval : (((blank ()).place .passLine 10 .comeOut >>= fun a =>
      a.1.forfeit >>= fun b =>
      b.1.place .small 10 .comeOut >>= fun c =>
      c.1.place .fire 10 .comeOut >>= fun d =>
      d.1.settle .comeOut (.ofSquare 2) false >>= fun e =>
      e.1.place .comeBox 100 (.point 4) >>= fun f =>
      f.1.place (.next 5) 7 (.point 4) >>= fun g =>
      g.1.settle (.point 4) (.ofSquare 3) true).toOption.map
        (fun r => (r.1.rides .small, r.1.rides (.come 5), r.1.rides .all, r.1.trackers.smallHits)))
      = some (true, true, false, 12) := by
    decide +kernel
  obtain ⟨s, hrun, hfacts⟩ := Option.map_eq_some_iff.mp heval
  have hrun := eq_ok_of_toOption hrun
  simp only [bind_eq_ok_iff] at hrun
  obtain ⟨a, ha, b, hb, c, hc, d, hd, e, he, f, hf, g, hg, hs⟩ := hrun
  simp only [Prod.mk.injEq] at hfacts
  obtain ⟨hsmall, hcome, hall, hhits⟩ := hfacts
  have hasked : Spot.ofRequest .passLine 0 = .ok .passLine ∧ Spot.ofRequest .small 0 = .ok .small ∧
      Spot.ofRequest .fire 0 = .ok .fire ∧ Spot.ofRequest .come 0 = .ok .comeBox ∧
      Spot.ofRequest .next 5 = .ok (.next 5) := ⟨rfl, rfl, rfl, rfl, rfl⟩
  obtain ⟨hpass, hsums, hpoints, hbox, hnext⟩ := hasked
  have hforfeit : Career .comeOut (blank ()) [] b.1 := .forfeit [] (.bet .start hpass ha) hb
  have hbets : Career .comeOut (blank ()) [] d.1 := .bet (.bet hforfeit hsums hc) hpoints hd
  have hlate : Career .comeOut (blank ()) [.ofSquare 2] g.1 :=
    .bet (.bet (.settle hbets he) hbox hf) hnext hg
  have hcareer : Career .comeOut (blank ()) [.ofSquare 2, .ofSquare 3] s.1 := .settle hlate hs
  obtain ⟨-, -, -, hidle, -, hmasks, -⟩ := seat_stays_tidy hcareer
  have hshort := (hmasks .small _ List.mem_cons_self hsmall).2
  refine ⟨s.1, hcareer, hsmall, hcome, hhits, ?_, hidle .all (by decide) hall⟩
  rw [← hhits]
  exact hshort

end Seat

end DiceHouse
