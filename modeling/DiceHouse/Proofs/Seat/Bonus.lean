import DiceHouse.Proofs.Seat.Course

/-!
# Bonus bets

A bonus bet is decided by what was rolled since it was placed. `Bonus.rule` says so in terms of the
rolls themselves: which sums came up, which points were made, how often the line won. The seat keeps
no rolls but masks and a counter, which it sets back when the bet is placed and brings up to date with
each roll before it judges. `Bonus.Counted` says that the tracker of a bet stands for the rolls that
came since; what rides elsewhere at the seat, and what was bet there before, does not enter into it.
-/

namespace DiceHouse

/-! ## The rules -/

namespace Bonus

/-- How many different points were made. -/
def pointsMade (calls : List Call) : Nat :=
  Dice.pointNumbers.toList.countP fun p => Call.pointMade p ∈ calls

/-- How often the line won, by a natural or by a point that was made. -/
def lineWins (calls : List Call) : Nat := calls.countP Seat.isLineWin

/-- Lost to the first seven; won on the roll that completes the sums. -/
def sumsRule (wanted : List Nat) (odds : Odds) (earlier : List Roll) (roll : Roll) : Verdict :=
  if roll.sum = 7 then .lose
  else if ∀ n ∈ wanted, ∃ r ∈ earlier ++ [roll], r.sum = n then .win odds
  else .carry

/-- Won on the roll that makes the sixth point; otherwise decided by the first seven-out, for which
four points or five are enough. -/
def fireRule (earlier : List Call) (call : Call) : Verdict :=
  let made := pointsMade (earlier ++ [call])
  if made = 6 then .win ⟨999, 1⟩
  else if call = .sevenOut then
    if made = 5 then .win ⟨249, 1⟩ else if made = 4 then .win ⟨24, 1⟩ else .lose
  else .carry

/-- Decided by the first seven-out: three wins of the line pay, and more pay more, up to eleven. -/
def rideRule (earlier : List Call) (call : Call) : Verdict :=
  let wins := lineWins (earlier ++ [call])
  if call = .sevenOut then
    if 3 ≤ wins then .win ⟨Odds.rideNums.toList.getD (min wins 11 - 3) 0, 1⟩ else .lose
  else .carry

/-- What a roll means for a bonus bet that was placed on a come-out, with these rolls since. -/
def rule (spot : Spot) (earlier : List Roll) (roll : Roll) : Verdict :=
  let calls := Phase.comeOut.calls earlier
  let call := ((Phase.comeOut.along earlier).step roll.sum).2
  match spot with
  | .small => sumsRule [2, 3, 4, 5, 6] ⟨30, 1⟩ earlier roll
  | .tall => sumsRule [8, 9, 10, 11, 12] ⟨30, 1⟩ earlier roll
  | .all => sumsRule [2, 3, 4, 5, 6, 8, 9, 10, 11, 12] ⟨150, 1⟩ earlier roll
  | .fire => fireRule calls call
  | .ride => rideRule calls call
  | _ => .carry

/-- The bets that count what was rolled since they were placed. -/
def tracked : List Spot := [.fire, .small, .tall, .all, .ride]

theorem isBonus_of_tracked {spot : Spot} (h : spot ∈ tracked) : spot.isBonus = true := by
  have hall : ∀ spot ∈ tracked, spot.isBonus = true := by decide
  exact hall spot h

/-- None of these rolls decided the bet. -/
def Undecided (spot : Spot) (rolls : List Roll) : Prop :=
  ∀ k roll, rolls[k]? = some roll → rule spot (rolls.take k) roll = .carry

theorem undecided_concat {spot : Spot} {rolls : List Roll} {roll : Roll}
    (h : Undecided spot (rolls ++ [roll])) : Undecided spot rolls ∧ rule spot rolls roll = .carry := by
  constructor
  · intro k r hk
    have hlt : k < rolls.length := (List.getElem?_eq_some_iff.mp hk).1
    have hopen := h k r (by rwa [List.getElem?_append_left hlt])
    rwa [List.take_append_of_le_length hlt.le] at hopen
  · have hopen := h rolls.length roll List.getElem?_concat_length
    rwa [List.take_left' rfl] at hopen

/-! ## Masks -/

/-- A mask of the sums that were rolled, the seven left out. -/
def Hits (mask : Nat) (rolls : List Roll) : Prop :=
  ∀ i, mask.testBit i = true ↔ i + 2 ≠ 7 ∧ ∃ roll ∈ rolls, roll.sum = i + 2

/-- A mask of the points that were made. -/
def Points (mask : Nat) (calls : List Call) : Prop :=
  ∀ i, mask.testBit i = true ↔
    ∃ j : Fin 6, j.val = i ∧ Call.pointMade (Dice.pointNumbers.get j) ∈ calls

variable {mask wanted hit : Nat} {rolls earlier : List Roll} {calls : List Call} {roll : Roll}
  {call : Call}

theorem testBit_one_shiftLeft (n i : Nat) : (1 <<< n).testBit i = decide (n = i) := by
  rw [Nat.one_shiftLeft, Nat.testBit_two_pow]

theorem hits_nil : Hits 0 [] := by
  intro i
  simp

/-- The mask with the place of one more sum is the mask of one more roll. -/
theorem Hits.mark (h : Hits mask rolls) (hhit : Seat.sumBit roll.sum = .ok hit) :
    Hits (mask ||| hit) (rolls ++ [roll]) := by
  intro i
  have hbit : hit.testBit i = true ↔ i + 2 ≠ 7 ∧ roll.sum = i + 2 := by
    unfold Seat.sumBit at hhit
    split at hhit
    · next hseven =>
      cases hhit
      rw [Nat.zero_testBit]
      exact iff_of_false Bool.false_ne_true fun ⟨hne, hsum⟩ => hne (hsum.symm.trans hseven)
    · next hseven =>
      split at hhit
      · next j hj =>
        cases hhit
        rw [Dice.sumIndex?_eq_some_iff.mp hj] at hseven ⊢
        rw [testBit_one_shiftLeft, decide_eq_true_eq]
        omega
      · cases hhit
  rw [Nat.testBit_or, Bool.or_eq_true, h i, hbit]
  simp only [List.mem_append, List.mem_singleton]
  constructor
  · rintro (⟨hseven, r, hr, hsum⟩ | ⟨hseven, hsum⟩)
    · exact ⟨hseven, r, .inl hr, hsum⟩
    · exact ⟨hseven, roll, .inr rfl, hsum⟩
  · rintro ⟨hseven, r, hr | rfl, hsum⟩
    · exact .inl ⟨hseven, r, hr, hsum⟩
    · exact .inr ⟨hseven, hsum⟩

theorem points_nil : Points 0 [] := by
  intro i
  simp

/-- The mask with the place of a point is the mask of one more call. -/
theorem Points.mark (h : Points mask calls) (hhit : Seat.pointBit call = .ok hit) :
    Points (mask ||| hit) (calls ++ [call]) := by
  intro i
  have hbit : hit.testBit i = true ↔
      ∃ j : Fin 6, j.val = i ∧ Call.pointMade (Dice.pointNumbers.get j) = call := by
    unfold Seat.pointBit at hhit
    split at hhit
    · next p =>
      split at hhit
      · next j hj =>
        cases hhit
        have hp : Dice.pointNumbers.get j = p := Dice.pointIndex?_eq_some_iff.mp hj
        rw [testBit_one_shiftLeft, decide_eq_true_eq]
        constructor
        · intro hi
          exact ⟨j, hi, congrArg _ hp⟩
        · rintro ⟨j', hi, hc⟩
          have hp' : Dice.pointIndex? p = some j' :=
            Dice.pointIndex?_eq_some_iff.mpr (Call.pointMade.inj hc)
          cases hj.symm.trans hp'
          exact hi
      · cases hhit
    · next hno =>
      cases hhit
      rw [Nat.zero_testBit]
      exact iff_of_false Bool.false_ne_true fun ⟨j, _, hc⟩ => hno _ hc.symm
  rw [Nat.testBit_or, Bool.or_eq_true, h i, hbit]
  simp only [List.mem_append, List.mem_singleton]
  constructor
  · rintro (⟨j, hi, hj⟩ | ⟨j, hi, hj⟩)
    · exact ⟨j, hi, .inl hj⟩
    · exact ⟨j, hi, .inr hj⟩
  · rintro ⟨j, hi, hj | hj⟩
    · exact .inl ⟨j, hi, hj⟩
    · exact .inr ⟨j, hi, hj⟩

/-- A mask holds another if it has all of its bits. -/
theorem and_eq_right_iff : mask &&& wanted = wanted ↔
    ∀ i, wanted.testBit i = true → mask.testBit i = true := by
  constructor
  · intro h i hi
    rw [← h, Nat.testBit_and, Bool.and_eq_true] at hi
    exact hi.1
  · intro h
    refine Nat.eq_of_testBit_eq fun i => ?_
    rw [Nat.testBit_and]
    cases hi : wanted.testBit i with
    | false => rw [Bool.and_false]
    | true => rw [h i hi, Bool.and_true]

theorem testBit_smallMask (i : Nat) : Trackers.smallMask.testBit i = decide (i < 5) :=
  Nat.testBit_two_pow_sub_one 5 i

theorem testBit_tallMask (i : Nat) :
    Trackers.tallMask.testBit i = decide (6 ≤ i ∧ i < 11) := by
  show ((2 ^ 5 - 1) <<< 6).testBit i = _
  rw [Nat.testBit_shiftLeft, Nat.testBit_two_pow_sub_one, Bool.decide_and]
  by_cases hi : 6 ≤ i
  · simp [hi]; omega
  · simp [hi]

theorem testBit_allMask (i : Nat) :
    Trackers.allMask.testBit i = decide (i < 5 ∨ 6 ≤ i ∧ i < 11) := by
  unfold Trackers.allMask
  rw [Nat.testBit_or, testBit_smallMask, testBit_tallMask, Bool.decide_or]

/-! ## Verdicts from masks -/

/-- A mask of sums holds the mask of the sums that are wanted when all of them were rolled. -/
theorem Hits.completes_iff (h : Hits mask rolls) {sums : List Nat}
    (hwanted : ∀ i, wanted.testBit i = true ↔ i + 2 ∈ sums)
    (hsums : ∀ n ∈ sums, 2 ≤ n ∧ n ≠ 7) :
    mask &&& wanted = wanted ↔ ∀ n ∈ sums, ∃ r ∈ rolls, r.sum = n := by
  rw [and_eq_right_iff]
  constructor
  · intro hall n hn
    obtain ⟨hlo, -⟩ := hsums n hn
    have hi : n - 2 + 2 = n := Nat.sub_add_cancel hlo
    have hbit := hall (n - 2) ((hwanted _).mpr (hi.symm ▸ hn))
    rw [h, hi] at hbit
    exact hbit.2
  · intro hall i hi
    have hmem := (hwanted i).mp hi
    exact (h i).mpr ⟨(hsums _ hmem).2, hall _ hmem⟩

theorem hitsVerdict_eq {odds : Odds} {sums : List Nat} (h : Hits mask (earlier ++ [roll]))
    (hwanted : ∀ i, wanted.testBit i = true ↔ i + 2 ∈ sums)
    (hsums : ∀ n ∈ sums, 2 ≤ n ∧ n ≠ 7) :
    Spot.hitsVerdict roll.sum mask wanted odds = sumsRule sums odds earlier roll := by
  unfold Spot.hitsVerdict sumsRule
  rw [if_congr (h.completes_iff hwanted hsums) rfl rfl]

/-- The bits of the mask of points are as many as the points that were made. -/
theorem Points.countP (h : Points mask calls) :
    (List.range 8).countP mask.testBit = pointsMade calls := by
  have hbit : ∀ j : Fin 6,
      mask.testBit j = decide (Call.pointMade (Dice.pointNumbers.get j) ∈ calls) := by
    intro j
    rw [Bool.eq_iff_iff, h, decide_eq_true_eq]
    constructor
    · rintro ⟨j', hj, hmem⟩
      exact Fin.ext hj ▸ hmem
    · intro hmem
      exact ⟨j, rfl, hmem⟩
  have hrest : ∀ i, 6 ≤ i → mask.testBit i = false := by
    intro i hi
    rw [Bool.eq_false_iff]
    intro hc
    obtain ⟨j, hj, -⟩ := (h i).mp hc
    omega
  have hrange : List.range 8 = (List.finRange 6).map Fin.val ++ [6, 7] := by decide
  have hnumbers : Dice.pointNumbers.toList = (List.finRange 6).map Dice.pointNumbers.get := by
    decide
  unfold pointsMade
  rw [hrange, hnumbers, List.countP_append, List.countP_map, List.countP_map]
  have htail : [6, 7].countP mask.testBit = 0 := by
    simp [hrest]
  rw [htail, Nat.add_zero]
  exact List.countP_congr fun j _ => by simp only [Function.comp_apply, hbit]

theorem fireVerdict_eq {view : RollView} (h : Points view.trackers.firePoints (calls ++ [view.call])) :
    Spot.verdict .fire view = .ok (fireRule calls view.call) := by
  have hmade : view.trackers.pointsMade = pointsMade (calls ++ [view.call]) := h.countP
  have hle : pointsMade (calls ++ [view.call]) ≤ 6 := List.countP_le_length
  simp only [Spot.verdict, fireRule, hmade, Odds.fire]
  generalize pointsMade (calls ++ [view.call]) = made at hle
  by_cases hsix : made = 6
  · simp [hsix]
  · have hlt : ¬6 ≤ made := by omega
    by_cases hend : view.call = .sevenOut
    · by_cases hfive : made = 5
      · simp [hfive, hend]
      · by_cases hfour : made = 4
        · simp [hfour, hend]
        · have hfew : made < 4 := by omega
          simp [hfew, hend, hsix, hfive, hfour]
    · simp only [hsix, hlt, hend, or_false, if_false]
      split <;> rfl

/-- The counter may stop where the table has long come to its end. -/
theorem ride_min (wins : Nat) : Odds.ride (min wins 255)
    = if 3 ≤ wins then some ⟨Odds.rideNums.toList.getD (min wins 11 - 3) 0, 1⟩ else none := by
  unfold Odds.ride Odds.rideMinWins
  by_cases hmany : 3 ≤ wins
  · have hpays : ¬min wins 255 < 3 := by omega
    have hplace : min (min wins 255 - 3) 8 = min wins 11 - 3 := by omega
    have hlt : min wins 11 - 3 < Odds.rideNums.toList.length := by
      show min wins 11 - 3 < 9
      omega
    rw [if_pos hmany, if_neg hpays, List.getD, List.getElem?_eq_getElem hlt,
      Option.getD_some, Vector.getElem_toList]
    simp only [hplace]
  · have hfew : min wins 255 < 3 := by omega
    rw [if_neg hmany, if_pos hfew]

theorem rideVerdict_eq {view : RollView}
    (h : view.trackers.rideWins = min (lineWins (calls ++ [view.call])) 255) :
    Spot.verdict .ride view = .ok (rideRule calls view.call) := by
  simp only [Spot.verdict, rideRule]
  rw [h, ride_min]
  by_cases hend : view.call = .sevenOut
  · rw [if_pos hend, if_pos hend]
    split_ifs
    · rfl
    · rfl
  · rw [if_neg hend, if_neg hend]

/-! ## Trackers -/

/-- The tracker of a bonus bet stands for the rolls since the bet was placed. -/
def Counted (spot : Spot) (t : Trackers) (rolls : List Roll) : Prop :=
  match spot with
  | .small => Hits t.smallHits rolls
  | .tall => Hits t.tallHits rolls
  | .all => Hits t.allHits rolls
  | .fire => Points t.firePoints (Phase.comeOut.calls rolls)
  | .ride => t.rideWins = min (lineWins (Phase.comeOut.calls rolls)) 255
  | _ => True

variable {spot other : Spot} {t : Trackers}

theorem counted_restart (spot : Spot) (t : Trackers) : Counted spot (t.restart spot) [] := by
  cases spot with
  | fire => exact points_nil
  | small | tall | all => exact hits_nil
  | ride => rfl
  | _ => trivial

/-- A bet on another spot leaves the tracker alone. -/
theorem Counted.restart (h : Counted spot t rolls) (hne : other ≠ spot) :
    Counted spot (t.restart other) rolls := by
  cases other with
  | fire | small | tall | all | ride =>
    cases spot with
    | fire | small | tall | all | ride => first | exact h | exact absurd rfl hne
    | _ => trivial
  | _ => exact h

variable {κ : Type} {s u : Seat κ}

/-- What counting a roll writes. -/
theorem track_eq {sum : Nat} (h : s.track call sum = .ok u) :
    ∃ point hit, (s.rides .fire = true → Seat.pointBit call = .ok point) ∧
      Seat.sumBit sum = .ok hit ∧
      u = { s with
        trackers :=
          { firePoints := s.trackers.firePoints ||| point
            rideWins := if s.rides .ride = true ∧ Seat.isLineWin call = true then
              min (s.trackers.rideWins + 1) 255 else s.trackers.rideWins
            smallHits := if s.rides .small then s.trackers.smallHits ||| hit
              else s.trackers.smallHits
            tallHits := if s.rides .tall then s.trackers.tallHits ||| hit
              else s.trackers.tallHits
            allHits := if s.rides .all then s.trackers.allHits ||| hit
              else s.trackers.allHits } } := by
  unfold Seat.track at h
  dsimp only at h
  split at h
  · next hfire =>
    simp only [bind_eq_ok_iff, pure_eq_ok_iff] at h
    obtain ⟨point, hpoint, hit, hhit, rfl⟩ := h
    exact ⟨point, hit, fun _ => hpoint, hhit, rfl⟩
  · next hfire =>
    simp only [bind_eq_ok_iff, pure_eq_ok_iff] at h
    obtain ⟨point, -, hit, hhit, rfl⟩ := h
    exact ⟨point, hit, fun hc => absurd hc hfire, hhit, rfl⟩

/-- The tracker of a bet that rides counts a roll. -/
theorem Counted.track (h : Counted spot s.trackers rolls) (hr : s.rides spot = true)
    (htrack : s.track ((Phase.comeOut.along rolls).step roll.sum).2 roll.sum = .ok u) :
    Counted spot u.trackers (rolls ++ [roll]) := by
  obtain ⟨point, hit, hpoint, hhit, rfl⟩ := track_eq htrack
  cases spot with
  | small | tall | all =>
    simp only [Counted, hr, if_true]
    exact h.mark hhit
  | fire =>
    simp only [Counted, Phase.calls_concat]
    exact h.mark (hpoint hr)
  | ride =>
    have hcount : s.trackers.rideWins = min (lineWins (Phase.comeOut.calls rolls)) 255 := h
    simp only [Counted, Phase.calls_concat, hr, true_and, hcount, lineWins, List.countP_append,
      List.countP_singleton]
    split <;> omega
  | _ => trivial

/-- A bet that rides keeps its tracker. -/
theorem Counted.rest (h : Counted spot s.trackers rolls) (hr : s.rides spot = true) :
    Counted spot s.restTrackers.trackers rolls := by
  unfold Seat.restTrackers
  cases spot with
  | fire | small | tall | all | ride =>
    simp only [Counted, hr, if_true]
    exact h
  | _ => trivial

/-- What a settlement sees decides a bonus bet as the rule does. -/
theorem Counted.verdict {view : RollView} (hspot : spot ∈ tracked)
    (h : Counted spot view.trackers (earlier ++ [roll])) (hroll : view.roll = roll)
    (hcall : view.call = ((Phase.comeOut.along earlier).step roll.sum).2) :
    spot.verdict view = .ok (rule spot earlier roll) := by
  subst hroll
  unfold Counted at h
  cases spot with
  | small =>
    exact congrArg _ (hitsVerdict_eq h (fun i => by simp [testBit_smallMask]; omega) (by decide))
  | tall =>
    exact congrArg _ (hitsVerdict_eq h (fun i => by simp [testBit_tallMask]; omega) (by decide))
  | all =>
    exact congrArg _ (hitsVerdict_eq h (fun i => by simp [testBit_allMask]; omega) (by decide))
  | fire =>
    dsimp only at h
    rw [Phase.calls_concat, ← hcall] at h
    rw [fireVerdict_eq h, hcall]
    rfl
  | ride =>
    dsimp only at h
    rw [Phase.calls_concat, ← hcall] at h
    rw [rideVerdict_eq h, hcall]
    rfl
  | _ => simp [tracked] at hspot

end Bonus

/-! ## Bets -/

namespace Seat

open Bonus

variable {κ : Type} {s t placed : Seat κ} {spot : Spot} {amount : Nat} {rolls : List Roll}
  {roll : Roll} {fieldTriple : Bool} {tally : Tally}

/-- A bonus bet that rides, with a tracker that stands for the rolls since it was placed. -/
structure Chases (s : Seat κ) (spot : Spot) (amount : Nat) (rolls : List Roll) : Prop where
  rides : (s.bet spot).rides = true
  amount : (s.bet spot).amount = amount
  counted : Counted spot s.trackers rolls

/-- A bonus bet starts anew, whatever was bet on its spot before. -/
theorem Staked.chases (hspot : spot ∈ tracked) (h : s.Staked spot amount .comeOut placed) :
    placed.Chases spot amount [] := by
  have hbonus : spot.isBonus = true := isBonus_of_tracked hspot
  refine ⟨h.rides, ?_, h.trackers ▸ counted_restart spot s.trackers⟩
  rw [h.amount, Wager.atRisk_of_not_rides (h.single hbonus), Nat.zero_add]

/-- What a settlement does to a bonus bet is what its rule says about the roll. -/
theorem Chases.settle (h : s.Chases spot amount rolls) (hs : s.Sound) (hspot : spot ∈ tracked)
    (hsettle : s.settle (Phase.comeOut.along rolls) roll fieldTriple = .ok (t, tally)) :
    ∃ view, s.seen (Phase.comeOut.along rolls) roll fieldTriple = .ok view ∧
      s.Ruled view t tally ∧ s.ruling view spot = rule spot rolls roll ∧
      t.bet spot = (rule spot rolls roll).leaves (s.bet spot) ∧
      Counted spot view.trackers (rolls ++ [roll]) := by
  obtain ⟨view, hseen, hruled⟩ := settle_ruled hs hsettle
  obtain ⟨-, hroll, hcall, u, htrack, htrackers⟩ := seen_ok hseen
  have hcounted : Counted spot view.trackers (rolls ++ [roll]) :=
    htrackers ▸ h.counted.track ((rides_eq s spot).trans h.rides) htrack
  have hruling : s.ruling view spot = rule spot rolls roll :=
    ruling_of_verdict h.rides (hcounted.verdict hspot hroll hcall)
  have hstays : ∀ box n, s.ruling view box = .travel n → box.landing n ≠ spot := by
    rintro box n - rfl
    unfold Spot.landing at hspot
    split at hspot <;> simp [tracked] at hspot
  have hbet := hruled.stays spot hstays
  rw [hruling] at hbet
  exact ⟨view, hseen, hruled, hruling, hbet, hcounted⟩

/-- A bonus bet that no roll decided rides on unchanged, whatever else happens at the seat. -/
theorem Course.chases (hspot : spot ∈ tracked) (hs : placed.Sound)
    (hstart : placed.Chases spot amount []) (h : Course .comeOut placed rolls s)
    (hopen : Undecided spot rolls) : s.Chases spot amount rolls := by
  induction h with
  | start => exact hstart
  | aside _ hwagers htrackers ih =>
    obtain ⟨hrides, hamount, hcounted⟩ := ih hopen
    refine ⟨?_, ?_, htrackers ▸ hcounted⟩
    · rwa [bet_congr hwagers]
    · rwa [bet_congr hwagers]
  | @place rolls t other stake placed' hcourse hplace ih =>
    obtain ⟨hrides, hamount, hcounted⟩ := ih hopen
    have hstaked := place_staked (hcourse.sound hs) hplace
    -- a second bet on the spot is refused while the first one rides
    have hne : spot ≠ other := by
      rintro rfl
      rw [hstaked.single (isBonus_of_tracked hspot)] at hrides
      cases hrides
    refine ⟨?_, ?_, hstaked.trackers ▸ hcounted.restart hne.symm⟩
    · rwa [hstaked.others spot hne]
    · rwa [hstaked.others spot hne]
  | @settle rolls t roll fieldTriple settled hcourse hsettle ih =>
    obtain ⟨hearlier, hlast⟩ := undecided_concat hopen
    have hchases := ih hearlier
    obtain ⟨view, -, hruled, -, hbet, hcounted⟩ :=
      hchases.settle (hcourse.sound hs) hspot hsettle
    rw [hlast] at hbet
    have hrides : (settled.1.bet spot).rides = true := by
      rw [hbet]
      exact (Wager.rides_carry _).trans hchases.rides
    refine ⟨hrides, ?_, ?_⟩
    · rw [hbet]
      exact (Wager.amount_carry _).trans hchases.amount
    · rw [hruled.trackers]
      exact hcounted.rest ((rides_eq _ spot).trans hrides)
  | pass roll _ hidle ih =>
    have hchases := ih (undecided_concat hopen).1
    exact absurd (bet_of_not_hasRiding hidle spot) (by simp [hchases.rides])

/-- A bonus bet that a sound seat placed on a come-out pays by its rule, and seats of the house are
sound. As long as no roll decided it, it rides with the stake that was placed, whatever else is
placed, won, lost or placed again at the seat meanwhile. The next settlement then passes the verdict
of the rule on it: that is what is left of the bet and what the tally gains beside the other spots'
shares. -/
theorem bonus_pays_its_rule {bet : Seat κ × Nat} {seat : Seat κ} (hs : s.Sound)
    (hspot : spot ∈ tracked) (hplace : s.place spot amount .comeOut = .ok bet)
    (hcourse : Course .comeOut bet.1 rolls seat) (hopen : Undecided spot rolls) :
    (seat.bet spot).rides = true ∧ (seat.bet spot).amount = amount ∧
      ∀ roll fieldTriple t tally,
        seat.settle (Phase.comeOut.along rolls) roll fieldTriple = .ok (t, tally) →
        t.bet spot = (rule spot rolls roll).leaves (seat.bet spot) ∧
          ∃ view, seat.seen (Phase.comeOut.along rolls) roll fieldTriple = .ok view ∧
            tally = (rule spot rolls roll).tally spot amount
              + ((Spot.order.erase spot).map (seat.share view)).sum := by
  have hplaced : bet.1.Sound := (place_ok hs hplace).sound
  have hseat : seat.Sound := hcourse.sound hplaced
  have hstart := (place_staked hs hplace).chases hspot
  have hchases := hcourse.chases hspot hplaced hstart hopen
  refine ⟨hchases.rides, hchases.amount, ?_⟩
  intro roll fieldTriple t tally hsettle
  obtain ⟨view, hseen, hruled, hruling, hbet, -⟩ := hchases.settle hseat hspot hsettle
  refine ⟨hbet, view, hseen, ?_⟩
  have hshare : seat.share view spot = (rule spot rolls roll).tally spot amount := by
    unfold share
    rw [hruling, hchases.amount]
  rw [hruled.tally, ← hshare]
  exact (List.sum_map_erase _ (hseat.mem_order hchases.rides)).symm

/-- A bet on the small sums, with a two, a three, a four and a five since. -/
def smallRolls : List Roll := [⟨0, 1, 1⟩, ⟨1, 1, 2⟩, ⟨2, 1, 3⟩, ⟨3, 1, 4⟩]

/-- The six that follows pays thirty to one. -/
theorem bonus_pays_its_rule_small :
    ∃ (bet : Seat Unit × Nat) (seat t : Seat Unit) (tally others : Tally),
      (blank ()).place .small 100 .comeOut = .ok bet ∧ Course .comeOut bet.1 smallRolls seat ∧
        Undecided .small smallRolls ∧
        seat.settle (Phase.comeOut.along smallRolls) (.ofSquare 4) false = .ok (t, tally) ∧
        t.bet .small = .cleared .won ∧
        tally = (Verdict.win ⟨30, 1⟩).tally .small 100 + others ∧ tally.credited = 3100 := by
  have heval : (((blank ()).place .small 100 .comeOut >>= fun bet =>
      bet.1.settleAll .comeOut false smallRolls >>= fun rest =>
        rest.1.settle (Phase.comeOut.along smallRolls) (.ofSquare 4) false).toOption.map
          (fun settled => settled.2.credited)) = some 3100 := by
    decide +kernel
  obtain ⟨⟨t, tally⟩, hrun, hcredited⟩ := Option.map_eq_some_iff.mp heval
  have hrun := eq_ok_of_toOption hrun
  simp only [bind_eq_ok_iff] at hrun
  obtain ⟨bet, hbet, ⟨seat, tallies⟩, hrest, hsettle⟩ := hrun
  have hcourse : Course .comeOut bet.1 smallRolls seat := Course.start.settleAll hrest
  have hopen : Undecided .small smallRolls := by
    intro k roll hk
    match k with
    | 0 | 1 | 2 | 3 =>
      cases hk
      decide
    | k + 4 => cases hk
  have hrule : rule .small smallRolls (.ofSquare 4) = .win ⟨30, 1⟩ := by decide
  obtain ⟨-, -, hnext⟩ :=
    bonus_pays_its_rule (sound_blank ()) (by decide) hbet hcourse hopen
  obtain ⟨hleft, view, -, htally⟩ := hnext _ _ _ _ hsettle
  rw [hrule] at hleft htally
  exact ⟨bet, seat, t, tally, _, hbet, hcourse, hopen, hsettle, hleft, htally, hcredited⟩

end Seat

end DiceHouse
