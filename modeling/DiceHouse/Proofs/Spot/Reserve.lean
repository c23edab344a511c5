import DiceHouse.Proofs.Checks
import DiceHouse.Proofs.Spot.Numbering
import DiceHouse.Spot.Verdict

/-!
# What a spot can win

The best odds of a spot are no less than any odds with which a roll can pay it, whatever the phase,
the dice and the trackers are. So a wager never wins more than what `Spot.reserve` set aside for it.
Bets in a come box and on a number tie up as much as their stake, so nothing has to be reserved anew
when a wager travels from one to the other.
-/

namespace DiceHouse

namespace Odds

variable {o w : Odds}

/-- Odds that pay, and no more than others do. -/
def AtMost (o w : Odds) : Prop := o.den ≠ 0 ∧ w.den ≠ 0 ∧ o.num * w.den ≤ w.num * o.den

instance (o w : Odds) : Decidable (o.AtMost w) := by
  unfold AtMost
  infer_instance

theorem gain_le_gain (h : o.AtMost w) (stake : Nat) : o.gain stake ≤ w.gain stake := by
  obtain ⟨ho, hw, hle⟩ := h
  unfold gain
  rw [Nat.le_div_iff_mul_le (Nat.pos_of_ne_zero hw)]
  refine Nat.le_of_mul_le_mul_right ?_ (Nat.pos_of_ne_zero ho)
  calc stake * o.num / o.den * w.den * o.den
      = stake * o.num / o.den * o.den * w.den := Nat.mul_right_comm _ _ _
    _ ≤ stake * o.num * w.den := Nat.mul_le_mul_right _ (Nat.div_mul_le_self _ _)
    _ = stake * (o.num * w.den) := Nat.mul_assoc _ _ _
    _ ≤ stake * (w.num * o.den) := Nat.mul_le_mul_left _ hle
    _ = stake * w.num * o.den := (Nat.mul_assoc _ _ _).symm

theorem atMost_refl (h : o.den ≠ 0) : o.AtMost o := ⟨h, h, Nat.le_refl _⟩

theorem gain_even (stake : Nat) : even.gain stake = stake := by
  simp [gain, even]

theorem taken_atMost {p : Nat} (h : taken p = .ok o) : o.AtMost ⟨2, 1⟩ := by
  unfold taken at h
  split at h <;> cases h <;> decide

theorem laid_atMost {p : Nat} (h : laid p = .ok o) : o.AtMost ⟨5, 6⟩ := by
  unfold laid at h
  split at h <;> cases h <;> decide

theorem field_atMost (sum : Nat) (triple : Bool) : (field sum triple).AtMost ⟨3, 1⟩ := by
  unfold field
  repeat' split
  all_goals decide

theorem fire_atMost {points : Nat} (h : fire points = some o) : o.AtMost ⟨999, 1⟩ := by
  unfold fire at h
  repeat' split at h
  all_goals cases h
  all_goals decide

theorem rideNums_atMost (i : Fin 9) : (⟨rideNums[i], 1⟩ : Odds).AtMost ⟨150, 1⟩ := by
  revert i
  decide

theorem ride_atMost {wins : Nat} (h : ride wins = some o) : o.AtMost ⟨150, 1⟩ := by
  unfold ride at h
  split at h
  · cases h
  · cases h
    exact rideNums_atMost ⟨min (wins - rideMinWins) 8, by omega⟩

end Odds

namespace Spot

variable {spot : Spot} {view : RollView} {odds worst : Odds}

/-! ## Verdicts -/

theorem worstOdds_den (h : spot.worstOdds = .ok worst) : worst.den ≠ 0 := by
  unfold worstOdds Odds.taken Odds.laid Odds.place Odds.hardway Odds.yes Odds.no Odds.next at h
  repeat' split at h
  all_goals cases h
  all_goals decide

/-- A winner is paid by its table, if there is one for the number. -/
theorem win_map_eq_ok_iff {table : Except Fault Odds} :
    Verdict.win <$> table = .ok (.win odds) ↔ table = .ok odds := by
  simp only [map_eq_ok_iff, Verdict.win.injEq, exists_eq_right]

/-- No roll pays a spot better than its best odds. -/
theorem verdict_win_atMost (h : spot.verdict view = .ok (.win odds))
    (hw : spot.worstOdds = .ok worst) : odds.AtMost worst := by
  have hden := worstOdds_den hw
  cases spot
  all_goals
    simp only [verdict, hitsVerdict, worstOdds, Except.ok.injEq] at h hw
    repeat' split at h
    all_goals
      simp only [win_map_eq_ok_iff, Except.ok.injEq, Verdict.win.injEq, reduceCtorEq] at h
  -- what is left are the rolls that win, each with the odds that it pays
  all_goals first
    | (subst h hw; decide)
    | (cases h.symm.trans hw; exact Odds.atMost_refl hden)
    | (subst hw; exact Odds.taken_atMost h)
    | (subst hw; exact Odds.laid_atMost h)
    | (subst h hw; exact Odds.field_atMost _ _)
    | (subst h hw; exact Odds.fire_atMost ‹_›)
    | (subst h hw; exact Odds.ride_atMost ‹_›)

/-- Only wagers in a come box travel. -/
theorem verdict_travel {n : Nat} (h : spot.verdict view = .ok (.travel n)) :
    spot = comeBox ∨ spot = dontComeBox := by
  cases spot
  case comeBox => exact .inl rfl
  case dontComeBox => exact .inr rfl
  all_goals
    simp only [verdict, hitsVerdict] at h
    repeat' split at h
    all_goals simp only [map_eq_ok_iff, Except.ok.injEq, reduceCtorEq, and_false, exists_false] at h

/-- A number that can be the point has odds taken and laid on it. -/
theorem odds_of_point {p : Nat} (h : (Dice.pointIndex? p).isSome) :
    (∃ o, Odds.taken p = .ok o) ∧ ∃ o, Odds.laid p = .ok o := by
  unfold Dice.pointIndex? at h
  split at h <;> first | exact ⟨⟨_, rfl⟩, _, rfl⟩ | cases h

/-- Every roll decides a wager on a spot that has best odds. -/
theorem verdict_ok (hphase : view.phase.Valid) (hw : spot.worstOdds = .ok worst) :
    ∃ v, spot.verdict view = .ok v := by
  cases spot
  case passOdds =>
    cases hp : view.phase with
    | comeOut => exact ⟨.push, by simp only [verdict, hp]⟩
    | point p =>
      rw [hp] at hphase
      obtain ⟨odds, hodds⟩ := (odds_of_point hphase).1
      simp only [verdict, hp, hodds]
      repeat' split
      all_goals exact ⟨_, rfl⟩
  case dontPassOdds =>
    cases hp : view.phase with
    | comeOut => exact ⟨.push, by simp only [verdict, hp]⟩
    | point p =>
      rw [hp] at hphase
      obtain ⟨odds, hodds⟩ := (odds_of_point hphase).2
      simp only [verdict, hp, hodds]
      repeat' split
      all_goals exact ⟨_, rfl⟩
  -- the other odds are read from the table of the spot, as its best odds are
  all_goals
    simp only [worstOdds] at hw
    simp only [verdict]
    try rw [hw]
    repeat' split
    all_goals exact ⟨_, rfl⟩

/-- A wager that travels goes to a number that can be the point. -/
theorem point_of_travel {n : Nat} (hlo : 2 ≤ view.sum) (hhi : view.sum ≤ 12)
    (h : spot.verdict view = .ok (.travel n)) : (Dice.pointIndex? n).isSome := by
  -- the sums that travel are those that a come-out makes its point
  have hcomeOut : Phase.comeOut.Valid := trivial
  have hvalid := Phase.valid_step hcomeOut hlo hhi
  unfold Phase.step at hvalid
  rcases verdict_travel h with rfl | rfl
  all_goals
    simp only [verdict] at h
    repeat' split at h
    all_goals cases h
  · rw [if_neg ‹_›, if_neg ‹_›] at hvalid
    exact hvalid
  · rw [if_neg ‹_›, if_neg ‹_›] at hvalid
    exact hvalid

theorem index?_landing {n : Nat} (box : Spot) (h : (Dice.pointIndex? n).isSome) :
    ∃ i, (landing box n).index? = some i := by
  obtain ⟨j, hj⟩ := Option.isSome_iff_exists.mp h
  unfold landing
  split
  all_goals
    simp only [index?, hj]
    exact ⟨_, rfl⟩

/-! ## Reservations -/

variable {amount profit r : Nat}

/-- What so much stake on the spot ties up; nothing where that cannot be told. -/
def tied (spot : Spot) (amount : Nat) : Nat :=
  match spot.reserve amount with
  | .ok worst => worst
  | .error _ => 0

theorem reserve_eq_ok_iff : spot.reserve amount = .ok r ↔
    ∃ worst, spot.worstOdds = .ok worst ∧ worst.den ≠ 0 ∧ worst.gain amount < Amount.limit ∧
      r = worst.gain amount := by
  simp only [reserve, bind_eq_ok_iff, Odds.profit_eq_ok_iff]

theorem tied_of_reserve (h : spot.reserve amount = .ok r) : spot.tied amount = r := by
  rw [tied, h]

/-- No stake ties up nothing. -/
theorem tied_zero (spot : Spot) : spot.tied 0 = 0 := by
  unfold tied
  split
  · next h =>
    obtain ⟨worst, -, -, -, rfl⟩ := reserve_eq_ok_iff.mp h
    simp [Odds.gain]
  · rfl

theorem reserve_of_even (h : spot.worstOdds = .ok .even) (ha : amount < Amount.limit) :
    spot.reserve amount = .ok amount := by
  rw [reserve_eq_ok_iff]
  refine ⟨.even, h, by decide, ?_, (Odds.gain_even amount).symm⟩
  rw [Odds.gain_even]
  exact ha

theorem worstOdds_landing (box : Spot) (n : Nat) : (landing box n).worstOdds = .ok .even := by
  unfold landing
  split <;> rfl

/-- What is reserved for a wager covers whatever a roll can pay it. -/
theorem profit_le_reserve (hv : spot.verdict view = .ok (.win odds))
    (hr : spot.reserve amount = .ok r) (hp : odds.profit amount = .ok profit) : profit ≤ r := by
  obtain ⟨worst, hw, -, -, rfl⟩ := reserve_eq_ok_iff.mp hr
  obtain ⟨-, -, rfl⟩ := Odds.profit_eq_ok_iff.mp hp
  exact Odds.gain_le_gain (verdict_win_atMost hv hw) amount

/-- A spot on which something can be reserved is decided by every roll. -/
theorem mem_order_of_reserve {i : Fin spotCount} (h : (ofIndex i).reserve amount = .ok r) :
    ofIndex i ∈ order := by
  obtain ⟨worst, hw, -⟩ := reserve_eq_ok_iff.mp h
  rw [mem_order_ofIndex]
  refine ⟨fun hc => ?_, fun hc => ?_⟩
  all_goals
    rw [hc] at hw
    cases hw

end Spot

end DiceHouse
