import DiceHouse.Proofs.Seat.Charges
import DiceHouse.Proofs.Seat.Course

/-!
# A come bet is a line bet with its own come-out

A seat with nothing but a bet in a come box fares as a seat with nothing but a bet on the line fares
at a table that is just coming out, whatever phase the table of the first is in. `Twins` is the
relation that the rolls keep: the bet waits in its box while the line comes out, stands on a number
while that is the point, or both bets have ended alike. Under it each roll has the same tally on both
sides and is refused on both sides or on neither.
-/

namespace DiceHouse

/-! ## One verdict -/

namespace Verdict

/-- How a verdict ends a wager, if it does. -/
def ending? : Verdict → Option WagerEnding
  | win _ => some .won
  | lose => some .lost
  | push => some .pushed
  | carry | travel _ => none

/-- The verdict on a bet that stays in its place where another travels. -/
def inPlace : Verdict → Verdict
  | travel _ => carry
  | verdict => verdict

/-- The tally of a settlement in which this verdict is the only one. -/
def tallied (spot : Spot) (amount : Nat) : Verdict → Except Fault Tally
  | win odds => Tally.win {} spot amount odds
  | lose => Tally.lose {} spot amount
  | push => Tally.push {} spot amount
  | carry | travel _ => .ok {}

variable {verdict : Verdict} {spot other : Spot} {amount : Nat}

theorem leaves_of_ending {e : WagerEnding} (h : verdict.ending? = some e) (w : Wager) :
    verdict.leaves w = .cleared e := by
  cases verdict <;> cases h <;> rfl

/-- Spots that tie up the same tally a verdict the same. -/
theorem tally_congr (h : spot.reserve amount = other.reserve amount) :
    verdict.tally spot amount = verdict.tally other amount := by
  have htied : spot.tied amount = other.tied amount := by
    unfold Spot.tied
    rw [h]
  cases verdict <;> simp only [tally, htied]

theorem tallied_congr (h : spot.reserve amount = other.reserve amount) :
    verdict.tallied spot amount = verdict.tallied other amount := by
  cases verdict <;> simp only [tallied, Tally.win, Tally.lose, Tally.push, h]

end Verdict

namespace Seat

variable {κ : Type} {s t : Seat κ} {spot : Spot} {amount : Nat} {view : RollView} {tally : Tally}

/-! ## A bet that is alone -/

/-- A sound seat at which nothing rides but so much stake on one spot. -/
structure Alone (s : Seat κ) (spot : Spot) (amount : Nat) : Prop where
  sound : s.Sound
  rides : (s.bet spot).rides = true
  amount : (s.bet spot).amount = amount
  others : ∀ other, other ≠ spot → (s.bet other).rides = false

/-- Nothing rides at the seat. -/
def Idle (s : Seat κ) : Prop := s.Sound ∧ ∀ spot, (s.bet spot).rides = false

section Fate

variable (hruled : s.Ruled view t tally)
include hruled

/-- Only the bet that is alone counts. -/
theorem Alone.tally_eq (h : s.Alone spot amount) :
    tally = (s.ruling view spot).tally spot amount := by
  have hrest : ((Spot.order.erase spot).map (s.share view)).sum = 0 := by
    refine List.sum_eq_zero fun x hx => ?_
    obtain ⟨other, hother, rfl⟩ := List.mem_map.mp hx
    refine share_of_not_rides (h.others other ?_)
    rintro rfl
    exact order_nodup.not_mem_erase hother
  rw [hruled.tally, ← List.sum_map_erase _ (h.sound.mem_order h.rides), hrest, add_zero, share,
    h.amount]

/-- Where the bet that is alone does not travel, every wager stays on its spot. -/
theorem Alone.stays (h : s.Alone spot amount) (hstays : ∀ n, s.ruling view spot ≠ .travel n)
    (other : Spot) : t.bet other = (s.ruling view other).leaves (s.bet other) := by
  refine hruled.stays other fun box n hn => ?_
  by_cases hc : box = spot
  · exact absurd (hc ▸ hn) (hstays n)
  · have hr := (travel_of_ruling hn).1
    rw [h.others box hc] at hr
    cases hr

theorem Alone.carry (h : s.Alone spot amount) (ht : t.Sound)
    (hcarry : s.ruling view spot = .carry) : t.Alone spot amount := by
  have hbet := h.stays hruled (by simp [hcarry])
  have hself := hbet spot
  rw [hcarry] at hself
  refine ⟨ht, ?_, ?_, fun other hne => ?_⟩
  · rw [hself]
    exact (Wager.rides_carry _).trans h.rides
  · rw [hself]
    exact (Wager.amount_carry _).trans h.amount
  · have hr := h.others other hne
    rw [hbet other, leaves_of_not_rides hr, hr]

theorem Alone.travel {n : Nat} (h : s.Alone spot amount) (ht : t.Sound)
    (htravel : s.ruling view spot = .travel n) : t.Alone (spot.landing n) amount := by
  have harrived := hruled.arrives spot n htravel
  rw [h.amount] at harrived
  refine ⟨ht, ?_, ?_, fun other hne => ?_⟩
  · rw [harrived]
    exact Wager.rides_arrived (h.amount ▸ Wager.pos_of_rides h.rides)
  · rw [harrived]
    rfl
  · have hstays := hruled.stays other fun box m hm => by
      rintro rfl
      by_cases hc : box = spot
      · subst hc
        cases htravel.symm.trans hm
        exact hne rfl
      · have hr := (travel_of_ruling hm).1
        rw [h.others box hc] at hr
        cases hr
    rw [hstays]
    by_cases hc : other = spot
    · rw [hc, htravel]
      rfl
    · have hr := h.others other hc
      rw [leaves_of_not_rides hr, hr]

theorem Alone.ended {e : WagerEnding} (h : s.Alone spot amount) (ht : t.Sound)
    (hends : (s.ruling view spot).ending? = some e) : t.Idle ∧ t.bet spot = .cleared e := by
  have hbet := h.stays hruled fun n hc => by
    rw [hc] at hends
    cases hends
  have hself : t.bet spot = .cleared e := (hbet spot).trans (Verdict.leaves_of_ending hends _)
  refine ⟨⟨ht, fun other => ?_⟩, hself⟩
  by_cases hc : other = spot
  · rw [hc, hself]
    rfl
  · have hr := h.others other hc
    rw [hbet other, leaves_of_not_rides hr, hr]

/-- Where nothing rides, a roll changes nothing. -/
theorem Idle.settled (h : s.Idle) : tally = 0 ∧ ∀ spot, t.bet spot = s.bet spot := by
  constructor
  · rw [hruled.tally]
    refine List.sum_eq_zero fun x hx => ?_
    obtain ⟨other, -, rfl⟩ := List.mem_map.mp hx
    exact share_of_not_rides (h.2 other)
  · intro spot
    rw [hruled.stays spot ?_, leaves_of_not_rides (h.2 spot)]
    intro box n hn
    have hr := (travel_of_ruling hn).1
    rw [h.2 box] at hr
    cases hr

end Fate

/-! ## What a seat with one bet can be refused for -/

section Refusals

variable {before : Seat κ} {p : Progress κ} {phase : Phase} {roll : Roll} {fieldTriple : Bool}
  {verdict : Verdict}

theorem foldlM_judge_of_idle {spots : List Spot} (hmem : ∀ other ∈ spots, other ∈ Spot.order)
    (hidle : ∀ other ∈ spots, (before.bet other).rides = false) :
    spots.foldlM (Progress.judge before view) p = .ok p := by
  induction spots with
  | nil => rfl
  | cons first spots ih =>
    rw [List.foldlM_cons, judge_of_idle (hmem first List.mem_cons_self)
      (hidle first List.mem_cons_self), ok_bind]
    exact ih (fun other ho => hmem other (List.mem_cons_of_mem _ ho)) fun other ho =>
      hidle other (List.mem_cons_of_mem _ ho)

/-- The walk over all spots comes down to the one on which something rides. -/
theorem foldlM_judge_of_alone (hspot : spot ∈ Spot.order)
    (hothers : ∀ other, other ≠ spot → (before.bet other).rides = false) :
    Spot.order.foldlM (Progress.judge before view) p = Progress.judge before view p spot := by
  obtain ⟨front, back, hsplit⟩ := List.append_of_mem hspot
  have hnodup := order_nodup
  rw [hsplit, List.nodup_middle, List.nodup_cons, List.mem_append, not_or] at hnodup
  obtain ⟨⟨hfront, hback⟩, -⟩ := hnodup
  have hmem : ∀ other, other ∈ front ++ spot :: back → other ∈ Spot.order :=
    fun other ho => hsplit ▸ ho
  rw [hsplit, List.foldlM_append, foldlM_judge_of_idle, ok_bind, List.foldlM_cons]
  · cases Progress.judge before view p spot with
    | error f => rfl
    | ok p' =>
      rw [ok_bind]
      refine foldlM_judge_of_idle (fun other ho => hmem other ?_) fun other ho => ?_
      · exact List.mem_append_right _ (List.mem_cons_of_mem _ ho)
      · exact hothers other (by rintro rfl; exact hback ho)
  · exact fun other ho => hmem other (List.mem_append_left _ ho)
  · exact fun other ho => hothers other (by rintro rfl; exact hfront ho)

/-- Judging the bet that is alone can be refused for its tally only. -/
theorem judge_of_alone (hspot : spot ∈ Spot.order) (hr : (s.bet spot).rides = true)
    (hv : spot.verdict view = .ok verdict) (u : Seat κ) :
    ∃ seat, u.setWager spot (verdict.leaves (u.bet spot)) = .ok seat ∧
      Progress.judge s view ⟨u, {}, []⟩ spot = do
        let tally ← verdict.tallied spot (s.bet spot).amount
        return ⟨seat, tally, verdict.moves spot (s.bet spot).amount⟩ := by
  obtain ⟨seat, hset, heq⟩ := judge_of_rides hspot hr hv (p := ⟨u, {}, []⟩)
  refine ⟨seat, hset, ?_⟩
  rw [heq]
  cases verdict <;> rfl

/-- Without a fire bet a settlement is refused for the sum of the dice, or it comes to the walk along
the spots. -/
theorem settle_of_no_fire (phase : Phase) (roll : Roll) (fieldTriple : Bool)
    (h : s.rides .fire = false) :
    (∃ f, sumBit roll.sum = .error f ∧ s.settle phase roll fieldTriple = .error f) ∨
      ∃ (hit : Nat) (view : RollView), sumBit roll.sum = .ok hit ∧ view.phase = phase ∧
        view.roll = roll ∧ s.settle phase roll fieldTriple = (do
          let p ← Spot.order.foldlM (Progress.judge s view)
            ⟨{ s with trackers := view.trackers }, {}, []⟩
          let landed ← p.moves.foldlM land p.seat
          return (← landed.restTrackers.book p.tally, p.tally)) := by
  unfold Seat.settle settleAlong track
  dsimp only
  rw [if_neg (by simp [h])]
  cases sumBit roll.sum with
  | error f => exact .inl ⟨f, rfl, rfl⟩
  | ok hit =>
    refine .inr ⟨hit, _, rfl, ?_, ?_, rfl⟩
    · rfl
    · rfl

/-- Booking hangs on the totals only. -/
theorem Rewritten.book_map {u : Seat κ} (h : s.Rewritten u) (tally : Tally) :
    (fun _ => tally) <$> u.restTrackers.book tally = (fun _ => tally) <$> s.book tally := by
  obtain ⟨wagers, trackers, rfl⟩ := h
  unfold book
  simp only [map_bind, map_pure]
  rfl

theorem sum_range_of_sumBit {sum hit : Nat} (h : sumBit sum = .ok hit) : 2 ≤ sum ∧ sum ≤ 12 := by
  unfold sumBit at h
  split at h
  · omega
  · split at h
    · next j hj =>
      have hsum := Dice.sumIndex?_eq_some_iff.mp hj
      omega
    · cases h

/-- A bet that is alone finds its number free. -/
theorem Alone.lands (h : s.Alone spot amount) (heven : spot.worstOdds = .ok .even)
    (hv : spot.verdict view = .ok verdict) (hlo : 2 ≤ view.sum) (hhi : view.sum ≤ 12)
    {trackers : Trackers} {w : Wager} {seat : Seat κ}
    (hset : { s with trackers }.setWager spot w = .ok seat) :
    ∃ landed, (verdict.moves spot amount).foldlM land seat = .ok landed ∧ s.Rewritten landed := by
  have hseat : s.Rewritten seat := Rewritten.setWager ⟨s.wagers, trackers, rfl⟩ hset
  cases verdict with
  | travel n =>
    obtain ⟨i, hi⟩ := Spot.index?_landing spot (Spot.point_of_travel hlo hhi hv)
    have hne : spot.landing n ≠ spot := by
      rcases Spot.verdict_travel hv with rfl | rfl <;> simp [Spot.landing]
    have hfree : (seat.bet (spot.landing n)).amount = 0 := by
      rw [bet_setWager hset, if_neg hne]
      exact (h.sound.bet_holds _).idle (h.others _ hne)
    have hlt : amount < Amount.limit := by
      obtain ⟨worst, hworst⟩ := (h.sound.bet_holds spot).reserved h.rides
      obtain ⟨odds, hodds, -, hlt, -⟩ := Spot.reserve_eq_ok_iff.mp hworst
      cases heven.symm.trans hodds
      rwa [Odds.gain_even, h.amount] at hlt
    obtain ⟨wagers, hland⟩ := land_of_free hi hfree hlt
    obtain ⟨wagers', trackers', rfl⟩ := hseat
    refine ⟨_, ?_, ⟨wagers, trackers', rfl⟩⟩
    rw [Verdict.moves, List.foldlM_cons, hland]
    rfl
  | _ => exact ⟨seat, rfl, hseat⟩

/-- A bet that is alone makes the settlement: what the roll adds to the tally, and whether it is
refused. -/
theorem Alone.settle (h : s.Alone spot amount) (heven : spot.worstOdds = .ok .even)
    (hv : ∀ view : RollView, view.phase = phase → view.roll = roll →
      spot.verdict view = .ok verdict) :
    Prod.snd <$> s.settle phase roll fieldTriple = (do
      let _ ← sumBit roll.sum
      let tally ← verdict.tallied spot amount
      (fun _ => tally) <$> s.book tally) := by
  have hspot : spot ∈ Spot.order := h.sound.mem_order h.rides
  have hfire : s.rides .fire = false := by
    rw [rides_eq]
    refine h.others _ ?_
    rintro rfl
    cases heven
  rcases settle_of_no_fire phase roll fieldTriple hfire with
    ⟨f, hsum, hsettle⟩ | ⟨hit, view, hsum, hphase, hroll, hsettle⟩
  · rw [hsettle, hsum]
    rfl
  · have hrange := sum_range_of_sumBit hsum
    rw [← hroll] at hrange
    have hverdict := hv view hphase hroll
    obtain ⟨seat, hset, hjudge⟩ := judge_of_alone hspot h.rides hverdict
      { s with trackers := view.trackers }
    rw [hsettle, hsum, foldlM_judge_of_alone hspot h.others, hjudge, h.amount]
    cases htally : verdict.tallied spot amount with
    | error f => rfl
    | ok tally =>
      obtain ⟨landed, hland, hrewritten⟩ : ∃ landed,
          (verdict.moves spot amount).foldlM land seat = .ok landed ∧ s.Rewritten landed :=
        h.lands heven hverdict hrange.1 hrange.2 hset
      show Prod.snd <$> (do
        let landed ← (verdict.moves spot amount).foldlM land seat
        return (← landed.restTrackers.book tally, tally)) = (fun _ => tally) <$> s.book tally
      rw [hland, ok_bind, ← hrewritten.book_map]
      simp only [map_bind, map_pure]
      rfl

/-- A seat at which nothing rides is refused for the dice or for its totals only. -/
theorem Idle.settle (h : s.Idle) :
    Prod.snd <$> s.settle phase roll fieldTriple = (do
      let _ ← sumBit roll.sum
      (fun _ => ({} : Tally)) <$> s.book {}) := by
  have hfire : s.rides .fire = false := (rides_eq s .fire).trans (h.2 .fire)
  rcases settle_of_no_fire phase roll fieldTriple hfire with
    ⟨f, hsum, hsettle⟩ | ⟨hit, view, hsum, -, -, hsettle⟩
  · rw [hsettle, hsum]
    rfl
  · have hrewritten : s.Rewritten { s with trackers := view.trackers } := ⟨s.wagers, _, rfl⟩
    rw [hsettle, hsum,
      foldlM_judge_of_idle (fun _ ho => ho) (fun other _ => h.2 other), ok_bind,
      ← hrewritten.book_map]
    simp only [List.foldlM_nil, pure_bind, map_bind, map_pure]
    rfl

end Refusals

end Seat

/-! ## The two bets, roll by roll -/

namespace Spot

/-- The come boxes, each with the bet on the line that it copies. -/
def copies : List (Spot × Spot) := [(comeBox, passLine), (dontComeBox, dontPass)]

variable {box line : Spot}

theorem worstOdds_of_copies (h : (box, line) ∈ copies) :
    box.worstOdds = .ok .even ∧ line.worstOdds = .ok .even := by
  rcases List.mem_pair.mp h with heq | heq <;> cases heq <;> exact ⟨rfl, rfl⟩

/-- Whatever its table does, a roll has this verdict for the bet on a spot, and the same for the line
bet in this phase, on which nothing travels. -/
structure Copied (spot line : Spot) (phase : Phase) (sum : Nat) (verdict : Verdict) : Prop where
  come : ∀ view : RollView, view.sum = sum → spot.verdict view = .ok verdict
  line : ∀ view : RollView, view.phase = phase → view.sum = sum →
    line.verdict view = .ok verdict.inPlace

/-- A roll ends both bets, or it sends the wager in the box to the number that becomes the point. -/
theorem verdict_in_box (h : (box, line) ∈ copies) (sum : Nat) :
    ∃ verdict, Copied box line .comeOut sum verdict ∧
      ((∃ e, verdict.ending? = some e) ∨
        verdict = .travel sum ∧ (Phase.comeOut.step sum).1 = .point sum) := by
  rcases List.mem_pair.mp h with heq | heq
  · cases heq
    refine ⟨if Dice.isNatural sum then .win .even else if Dice.isCraps sum then .lose
      else .travel sum, ⟨?_, ?_⟩, ?_⟩
    · rintro view rfl
      simp only [verdict]
      split_ifs <;> rfl
    · rintro view hphase rfl
      simp only [verdict, hphase]
      split_ifs <;> rfl
    · split_ifs with hnatural hcraps
      · exact .inl ⟨_, rfl⟩
      · exact .inl ⟨_, rfl⟩
      · exact .inr ⟨rfl, Phase.step_to_point hnatural hcraps⟩
  · cases heq
    refine ⟨if Dice.isNatural sum then .lose else if sum = 12 then .push
      else if Dice.isCraps sum then .win .even else .travel sum, ⟨?_, ?_⟩, ?_⟩
    · rintro view rfl
      simp only [verdict]
      split_ifs <;> rfl
    · rintro view hphase rfl
      simp only [verdict, hphase]
      split_ifs <;> rfl
    · split_ifs with hnatural htwelve hcraps
      · exact .inl ⟨_, rfl⟩
      · exact .inl ⟨_, rfl⟩
      · exact .inl ⟨_, rfl⟩
      · exact .inr ⟨rfl, Phase.step_to_point hnatural hcraps⟩

/-- A roll ends both bets, or it leaves the number and the point as they are. -/
theorem verdict_on_number (h : (box, line) ∈ copies) (n sum : Nat) :
    ∃ verdict, Copied (box.landing n) line (.point n) sum verdict ∧
      ((∃ e, verdict.ending? = some e) ∨
        verdict = .carry ∧ ((Phase.point n).step sum).1 = .point n) := by
  rcases List.mem_pair.mp h with heq | heq
  · cases heq
    refine ⟨if sum = n then .win .even else if sum = 7 then .lose else .carry, ⟨?_, ?_⟩, ?_⟩
    · rintro view rfl
      simp only [verdict, landing, if_true]
      split_ifs <;> rfl
    · rintro view hphase rfl
      simp only [verdict, hphase]
      split_ifs <;> rfl
    · split_ifs with hnumber hseven
      · exact .inl ⟨_, rfl⟩
      · exact .inl ⟨_, rfl⟩
      · exact .inr ⟨rfl, Phase.step_on_point hnumber hseven⟩
  · cases heq
    refine ⟨if sum = 7 then .win .even else if sum = n then .lose else .carry, ⟨?_, ?_⟩, ?_⟩
    · rintro view rfl
      simp only [verdict, landing, reduceCtorEq, if_false]
      split_ifs <;> rfl
    · rintro view hphase rfl
      simp only [verdict, hphase]
      split_ifs <;> rfl
    · split_ifs with hseven hnumber
      · exact .inl ⟨_, rfl⟩
      · exact .inl ⟨_, rfl⟩
      · exact .inr ⟨rfl, Phase.step_on_point hnumber hseven⟩

end Spot

namespace Seat

variable {κ : Type} {a b a' b' : Seat κ} {box line : Spot} {amount : Nat} {phase other : Phase}
  {roll : Roll} {fieldTriple : Bool}

/-- A seat with nothing but a bet that went into a come box, and one with nothing but a line bet, at
a table where the line is in this phase. -/
inductive Twins (box line : Spot) (amount : Nat) (a b : Seat κ) : Phase → Prop where
  /-- The bet is in its box while the line comes out. -/
  | waiting (ha : a.Alone box amount) (hb : b.Alone line amount) :
    Twins box line amount a b .comeOut
  /-- The bet stands on the number that is the point. -/
  | standing (n : Nat) (ha : a.Alone (box.landing n) amount) (hb : b.Alone line amount) :
    Twins box line amount a b (.point n)
  /-- Both bets have ended, and alike. -/
  | ended {phase : Phase} (spot : Spot) (e : WagerEnding)
    (hspot : spot = box ∨ ∃ n, spot = box.landing n) (ha : a.Idle) (hb : b.Idle)
    (hcome : a.bet spot = .cleared e) (hline : b.bet line = .cleared e) :
    Twins box line amount a b phase

/-- Seats with the same money waiting and the same lifetime totals. -/
structure Abreast (a b : Seat κ) : Prop where
  pending : a.pending = b.pending
  won : a.totalWon = b.totalWon
  lost : a.totalLost = b.totalLost
  pushed : a.totalPushed = b.totalPushed

section Step

variable {ta tb : Tally}

/-- What one verdict makes of two bets that are alone. -/
inductive Fared (spot line : Spot) (amount : Nat) (a b : Seat κ) : Verdict → Prop where
  | ended {verdict : Verdict} (e : WagerEnding) (hends : verdict.ending? = some e) (ha : a.Idle)
    (hb : b.Idle) (hspot : a.bet spot = .cleared e) (hline : b.bet line = .cleared e) :
    Fared spot line amount a b verdict
  | carried (ha : a.Alone spot amount) (hb : b.Alone line amount) :
    Fared spot line amount a b .carry
  | travelled (n : Nat) (ha : a.Alone (spot.landing n) amount) (hb : b.Alone line amount) :
    Fared spot line amount a b (.travel n)

/-- Bets that are alone and have one verdict have one tally, and fare alike. -/
theorem Alone.copied {spot : Spot} {verdict : Verdict} (ha : a.Alone spot amount)
    (hb : b.Alone line amount) (hspot : spot.worstOdds = .ok .even)
    (hline : line.worstOdds = .ok .even)
    (hverdict : Spot.Copied spot line phase roll.sum verdict)
    (hseta : a.settle other roll fieldTriple = .ok (a', ta))
    (hsetb : b.settle phase roll fieldTriple = .ok (b', tb)) :
    ta = tb ∧ Fared spot line amount a' b' verdict := by
  obtain ⟨va, hsa, hra⟩ := settle_ruled ha.sound hseta
  obtain ⟨vb, hsb, hrb⟩ := settle_ruled hb.sound hsetb
  obtain ⟨-, hrolla, -⟩ := seen_ok hsa
  obtain ⟨hphase, hrollb, -⟩ := seen_ok hsb
  have hva := ruling_of_verdict ha.rides (hverdict.come va (congrArg Roll.sum hrolla))
  have hvb := ruling_of_verdict hb.rides (hverdict.line vb hphase (congrArg Roll.sum hrollb))
  have hsounda := (settle_ok ha.sound hseta).sound
  have hsoundb := (settle_ok hb.sound hsetb).sound
  have hreserve : spot.reserve amount = line.reserve amount := by
    unfold Spot.reserve
    rw [hspot, hline]
  have htallies : ta = tb := by
    rw [ha.tally_eq hra, hb.tally_eq hrb, hva, hvb, Verdict.tally_congr hreserve]
    cases verdict <;> rfl
  refine ⟨htallies, ?_⟩
  cases verdict with
  | win odds | lose | push =>
    obtain ⟨hidlea, hcleareda⟩ := ha.ended hra hsounda (congrArg Verdict.ending? hva)
    obtain ⟨hidleb, hclearedb⟩ := hb.ended hrb hsoundb (congrArg Verdict.ending? hvb)
    exact .ended _ rfl hidlea hidleb hcleareda hclearedb
  | carry => exact .carried (ha.carry hra hsounda hva) (hb.carry hrb hsoundb hvb)
  | travel n => exact .travelled n (ha.travel hra hsounda hva) (hb.carry hrb hsoundb hvb)

/-- Each roll has one tally for both bets, and they remain twins. -/
theorem Twins.settle (h : Twins box line amount a b phase) (hcopies : (box, line) ∈ Spot.copies)
    (ha : a.settle other roll fieldTriple = .ok (a', ta))
    (hb : b.settle phase roll fieldTriple = .ok (b', tb)) :
    ta = tb ∧ Twins box line amount a' b' (phase.step roll.sum).1 := by
  obtain ⟨hbox, hline⟩ := Spot.worstOdds_of_copies hcopies
  cases h with
  | waiting hcome hpass =>
    obtain ⟨verdict, hverdict, hnext⟩ := Spot.verdict_in_box hcopies roll.sum
    obtain ⟨htally, hfared⟩ := hcome.copied hpass hbox hline hverdict ha hb
    refine ⟨htally, ?_⟩
    rcases hnext with ⟨e, hends⟩ | ⟨rfl, hpoint⟩
    · cases hfared with
      | ended e' _ hia hib hcleareda hclearedb =>
        exact .ended box e' (.inl rfl) hia hib hcleareda hclearedb
      | carried | travelled => cases hends
    · rw [hpoint]
      cases hfared with
      | ended e hends => cases hends
      | travelled n hla hlb => exact .standing roll.sum hla hlb
  | standing n hcome hpass =>
    obtain ⟨verdict, hverdict, hnext⟩ := Spot.verdict_on_number hcopies n roll.sum
    obtain ⟨htally, hfared⟩ :=
      hcome.copied hpass (Spot.worstOdds_landing box n) hline hverdict ha hb
    refine ⟨htally, ?_⟩
    rcases hnext with ⟨e, hends⟩ | ⟨rfl, hpoint⟩
    · cases hfared with
      | ended e' _ hia hib hcleareda hclearedb =>
        exact .ended (box.landing n) e' (.inr ⟨n, rfl⟩) hia hib hcleareda hclearedb
      | carried | travelled => cases hends
    · rw [hpoint]
      cases hfared with
      | ended e hends => cases hends
      | carried hla hlb => exact .standing n hla hlb
  | ended spot e hspot hia hib hcome hpass =>
    obtain ⟨va, -, hra⟩ := settle_ruled hia.1 ha
    obtain ⟨vb, -, hrb⟩ := settle_ruled hib.1 hb
    obtain ⟨hta, hstaya⟩ := hia.settled hra
    obtain ⟨htb, hstayb⟩ := hib.settled hrb
    refine ⟨hta.trans htb.symm, .ended spot e hspot ⟨(settle_ok hia.1 ha).sound, ?_⟩
      ⟨(settle_ok hib.1 hb).sound, ?_⟩ ((hstaya spot).trans hcome) ((hstayb line).trans hpass)⟩
    · intro spot
      rw [hstaya, hia.2]
    · intro spot
      rw [hstayb, hib.2]

end Step

/-! ## Totals -/

theorem Abreast.book_map (h : a.Abreast b) (tally : Tally) :
    (fun _ => tally) <$> a.book tally = (fun _ => tally) <$> b.book tally := by
  obtain ⟨hpending, hwon, hlost, hpushed⟩ := h
  unfold book
  rw [hpending, hwon, hlost, hpushed]
  simp only [map_bind, map_pure]

/-- Seats that book the same stay abreast. -/
theorem Abreast.settle {tally : Tally} (h : a.Abreast b)
    (ha : a.settle other roll fieldTriple = .ok (a', tally))
    (hb : b.settle phase roll fieldTriple = .ok (b', tally)) : a'.Abreast b' := by
  obtain ⟨u, ⟨wa, ta, rfl⟩, hbooka⟩ := book_of_settle ha
  obtain ⟨v, ⟨wb, tb, rfl⟩, hbookb⟩ := book_of_settle hb
  unfold book at hbooka hbookb
  simp only [bind_eq_ok_iff, Amount.add_eq_ok_iff, pure_eq_ok_iff] at hbooka hbookb
  obtain ⟨-, ⟨-, rfl⟩, -, ⟨-, rfl⟩, -, ⟨-, rfl⟩, -, ⟨-, rfl⟩, rfl⟩ := hbooka
  obtain ⟨-, ⟨-, rfl⟩, -, ⟨-, rfl⟩, -, ⟨-, rfl⟩, -, ⟨-, rfl⟩, rfl⟩ := hbookb
  exact ⟨congrArg (· + _) h.pending, congrArg (· + _) h.won, congrArg (· + _) h.lost,
    congrArg (· + _) h.pushed⟩

/-- Bets that are alone and have one verdict are refused alike. -/
theorem Alone.settle_alike {spot : Spot} {verdict : Verdict} (ha : a.Alone spot amount)
    (hb : b.Alone line amount) (hspot : spot.worstOdds = .ok .even)
    (hline : line.worstOdds = .ok .even)
    (hverdict : Spot.Copied spot line phase roll.sum verdict) (h : a.Abreast b) :
    Prod.snd <$> a.settle other roll fieldTriple = Prod.snd <$> b.settle phase roll fieldTriple := by
  have hreserve : spot.reserve amount = line.reserve amount := by
    unfold Spot.reserve
    rw [hspot, hline]
  have htallied : verdict.inPlace.tallied line amount = verdict.tallied spot amount := by
    rw [Verdict.tallied_congr hreserve]
    cases verdict <;> rfl
  rw [ha.settle hspot fun view _ hroll => hverdict.come view (congrArg Roll.sum hroll),
    hb.settle hline fun view hphase hroll => hverdict.line view hphase (congrArg Roll.sum hroll),
    htallied]
  simp only [h.book_map]

/-- A roll is refused for both of the twins or for neither. -/
theorem Twins.settle_alike (h : Twins box line amount a b phase)
    (hcopies : (box, line) ∈ Spot.copies) (htotals : a.Abreast b) :
    Prod.snd <$> a.settle other roll fieldTriple = Prod.snd <$> b.settle phase roll fieldTriple := by
  obtain ⟨hbox, hline⟩ := Spot.worstOdds_of_copies hcopies
  cases h with
  | waiting hcome hpass =>
    obtain ⟨verdict, hverdict, -⟩ := Spot.verdict_in_box hcopies roll.sum
    exact hcome.settle_alike hpass hbox hline hverdict htotals
  | standing n hcome hpass =>
    obtain ⟨verdict, hverdict, -⟩ := Spot.verdict_on_number hcopies n roll.sum
    exact hcome.settle_alike hpass (Spot.worstOdds_landing box n) hline hverdict htotals
  | ended spot e hspot hia hib =>
    rw [hia.settle, hib.settle, htotals.book_map]

/-! ## The whole way -/

theorem Twins.settleAll {rolls : List Roll} {tas tbs : List Tally}
    (h : Twins box line amount a b phase) (hcopies : (box, line) ∈ Spot.copies)
    (ha : a.settleAll other fieldTriple rolls = .ok (a', tas))
    (hb : b.settleAll phase fieldTriple rolls = .ok (b', tbs)) :
    tas = tbs ∧ Twins box line amount a' b' (phase.along rolls) := by
  induction rolls generalizing a b phase other tas tbs with
  | nil =>
    cases ha
    cases hb
    exact ⟨rfl, h⟩
  | cons roll rolls ih =>
    simp only [Seat.settleAll, bind_eq_ok_iff, pure_eq_ok_iff] at ha hb
    obtain ⟨⟨a₁, ta⟩, hfirsta, resta, hresta, heqa⟩ := ha
    obtain ⟨⟨b₁, tb⟩, hfirstb, restb, hrestb, heqb⟩ := hb
    cases heqa
    cases heqb
    obtain ⟨rfl, htwins⟩ := h.settle hcopies hfirsta hfirstb
    obtain ⟨htallies, hend⟩ := ih htwins hresta hrestb
    exact ⟨congrArg (ta :: ·) htallies, hend⟩

/-- Two runs with one result to show were both refused, for one reason, or both accepted. -/
theorem alike_cases {α β : Type} {x y : Except Fault (α × β)} (h : Prod.snd <$> x = Prod.snd <$> y) :
    (∃ f, x = .error f ∧ y = .error f) ∨ ∃ p q, x = .ok p ∧ y = .ok q := by
  cases x with
  | error f =>
    cases y with
    | error g =>
      cases h
      exact .inl ⟨f, rfl, rfl⟩
    | ok q => cases h
  | ok p =>
    cases y with
    | error g => cases h
    | ok q => exact .inr ⟨p, q, rfl, rfl⟩

theorem Twins.settleAll_alike {rolls : List Roll} (h : Twins box line amount a b phase)
    (hcopies : (box, line) ∈ Spot.copies) (htotals : a.Abreast b) :
    Prod.snd <$> a.settleAll other fieldTriple rolls
      = Prod.snd <$> b.settleAll phase fieldTriple rolls := by
  induction rolls generalizing a b phase other with
  | nil => rfl
  | cons roll rolls ih =>
    have hfirst : Prod.snd <$> a.settle other roll fieldTriple
        = Prod.snd <$> b.settle phase roll fieldTriple := h.settle_alike hcopies htotals
    have hcons : ∀ (ta : Tally) (x : Except Fault (Seat κ × List Tally)),
        (Prod.snd <$> do
          let rest ← x
          return (rest.1, ta :: rest.2)) = (ta :: ·) <$> (Prod.snd <$> x) := by
      rintro ta (f | rest) <;> rfl
    unfold Seat.settleAll
    rcases alike_cases hfirst with ⟨f, ha, hb⟩ | ⟨⟨a₁, ta⟩, ⟨b₁, tb⟩, ha, hb⟩
    · rw [ha, hb]
      rfl
    · obtain ⟨rfl, htwins⟩ := h.settle hcopies ha hb
      have htotals' : a₁.Abreast b₁ := htotals.settle ha hb
      rw [ha, hb, ok_bind, ok_bind, hcons, hcons, ih htwins htotals']

/-- A bet that waits alone in a come box is a line bet with its own come-out: along any rolls, and
whatever phase the table is in, each roll has the same tally as for a line bet of that amount that is
alone at a table coming out, and in the end both still ride or have ended alike. With the same totals
at both seats, the rolls are also refused alike. -/
theorem come_bet_has_own_come_out (hcopies : (box, line) ∈ Spot.copies) (ha : a.Alone box amount)
    (hb : b.Alone line amount) (phase : Phase) (fieldTriple : Bool) (rolls : List Roll) :
    (∀ a' b' tas tbs, a.settleAll phase fieldTriple rolls = .ok (a', tas) →
      b.settleAll .comeOut fieldTriple rolls = .ok (b', tbs) →
      tas = tbs ∧ Twins box line amount a' b' (Phase.comeOut.along rolls)) ∧
    (a.Abreast b → Prod.snd <$> a.settleAll phase fieldTriple rolls
      = Prod.snd <$> b.settleAll .comeOut fieldTriple rolls) := by
  have hstart : Twins box line amount a b .comeOut := .waiting ha hb
  constructor
  · intro a' b' tas tbs hseta hsetb
    exact hstart.settleAll hcopies hseta hsetb
  · intro htotals
    exact hstart.settleAll_alike hcopies htotals

/-- The first bet at a blank seat is alone there. -/
theorem alone_of_place {owner : κ} {spot : Spot} {placed : Seat κ × Nat}
    (h : (blank owner).place spot amount phase = .ok placed) : placed.1.Alone spot amount := by
  have hstaked := place_staked (sound_blank owner) h
  refine ⟨(place_ok (sound_blank owner) h).sound, hstaked.rides, ?_, fun other hne => ?_⟩
  · rw [hstaked.amount, bet_blank]
    exact Nat.zero_add amount
  · rw [hstaked.others other hne, bet_blank]
    rfl

/-- A five sends the come bet off, a six makes the point of its table, an eight becomes the next
point, and another five pays it. -/
def comeRolls : List Roll := [⟨3, 1, 4⟩, ⟨4, 1, 5⟩, ⟨11, 2, 6⟩, ⟨3, 1, 4⟩]

theorem come_bet_has_own_come_out_five :
    ∃ (a b : Seat Unit × Nat) (a' b' : Seat Unit) (tallies : List Tally),
      (blank ()).place .comeBox 100 (.point 6) = .ok a ∧
        (blank ()).place .passLine 100 .comeOut = .ok b ∧
        a.1.settleAll (.point 6) false comeRolls = .ok (a', tallies) ∧
        b.1.settleAll .comeOut false comeRolls = .ok (b', tallies) ∧
        tallies.map Tally.credited = [0, 0, 0, 200] := by
  have hevala : (((blank ()).place .comeBox 100 (.point 6) >>= fun a =>
      a.1.settleAll (.point 6) false comeRolls).toOption.map fun _ => ()) = some () := by
    decide +kernel
  have hevalb : (((blank ()).place .passLine 100 .comeOut >>= fun b =>
      b.1.settleAll .comeOut false comeRolls).toOption.map fun r => r.2.map Tally.credited)
        = some [0, 0, 0, 200] := by
    decide +kernel
  obtain ⟨⟨a', tas⟩, hruna, -⟩ := Option.map_eq_some_iff.mp hevala
  obtain ⟨⟨b', tbs⟩, hrunb, hcredited⟩ := Option.map_eq_some_iff.mp hevalb
  obtain ⟨a, ha, halla⟩ := bind_eq_ok_iff.mp (eq_ok_of_toOption hruna)
  obtain ⟨b, hb, hallb⟩ := bind_eq_ok_iff.mp (eq_ok_of_toOption hrunb)
  obtain ⟨hsame, -⟩ := come_bet_has_own_come_out (by decide) (alone_of_place ha)
    (alone_of_place hb) (.point 6) false comeRolls
  obtain ⟨rfl, -⟩ := hsame a' b' tas tbs halla hallb
  exact ⟨a, b, a', b', tas, ha, hb, halla, hallb, hcredited⟩

end Seat

end DiceHouse
