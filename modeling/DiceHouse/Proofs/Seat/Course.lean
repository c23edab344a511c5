import DiceHouse.Proofs.Seat.Riding
import DiceHouse.Proofs.Seat.Rulings
import DiceHouse.Proofs.Table.Line

/-!
# The course of a seat

Between two rolls the player of a seat places wagers, in the phase that the table is in; then the
seat is settled against the next roll, or passes it by with nothing riding. `Seat.Course` says that a
seat came from another in this way, along a list of rolls. What is refused leaves no trace in it, and
the money that is collected and the round of the last settlement are nobody's concern here.
-/

namespace DiceHouse.Seat

variable {κ : Type} {s t : Seat κ} {spot : Spot} {amount : Nat} {phase : Phase}

/-! ## Placing -/

theorem checkOdds_ok {parent odds : Wager} {u : Unit} (h : checkOdds parent odds amount = .ok u) :
    parent.rides = true ∧ odds.atRisk + amount ≤ parent.amount * maxOddsMultiple := by
  unfold checkOdds at h
  simp only [bind_eq_ok_iff, require_eq_ok_iff, exists_const, Amount.add_eq_ok_iff,
    Amount.fit_eq_ok_iff] at h
  obtain ⟨hrides, -, ⟨-, rfl⟩, -, ⟨-, rfl⟩, hle⟩ := h
  exact ⟨hrides, hle⟩

/-- Odds are allowed behind a parent that rides, and within a multiple of it; a bonus bet only
where none rides. -/
theorem allows_ok {u : Unit} (h : s.allows spot amount = .ok u) :
    (∀ parent, spot.parent? = some parent → (s.bet parent).rides = true ∧
        (s.bet spot).atRisk + amount ≤ (s.bet parent).amount * maxOddsMultiple) ∧
      (spot.isBonus = true → (s.bet spot).rides = false) := by
  unfold allows at h
  cases hp : spot.parent? with
  | none =>
    simp only [hp, bind_eq_ok_iff, require_eq_ok_iff, exists_const] at h
    refine ⟨fun parent hc => absurd hc (by simp), fun hb => ?_⟩
    rw [← rides_eq]
    exact Bool.eq_false_iff.mpr fun hr => h.1 ⟨hb, hr⟩
  | some parent =>
    simp only [hp, bind_eq_ok_iff, require_eq_ok_iff, exists_const] at h
    obtain ⟨before, hbefore, odds, hodds, _, hcheck, hbonus, -⟩ := h
    refine ⟨fun other hc => ?_, fun hb => ?_⟩
    · cases hc
      rw [bet_of_wager hbefore, bet_of_wager hodds]
      exact checkOdds_ok hcheck
    · rw [← rides_eq]
      exact Bool.eq_false_iff.mpr fun hr => hbonus ⟨hb, hr⟩

/-- What a bet was placed on and what it made of the seat. -/
structure Staked (s : Seat κ) (spot : Spot) (amount : Nat) (phase : Phase) (t : Seat κ) : Prop where
  opens : spot.opensIn phase = true
  parent : ∀ parent, spot.parent? = some parent → (s.bet parent).rides = true ∧
    (s.bet spot).atRisk + amount ≤ (s.bet parent).amount * maxOddsMultiple
  single : spot.isBonus = true → (s.bet spot).rides = false
  rides : (t.bet spot).rides = true
  amount : (t.bet spot).amount = (s.bet spot).atRisk + amount
  others : ∀ other, other ≠ spot → t.bet other = s.bet other
  trackers : t.trackers = s.trackers.restart spot

theorem place_staked {placed : Seat κ × Nat} (hs : s.Sound)
    (h : s.place spot amount phase = .ok placed) : s.Staked spot amount phase placed.1 := by
  unfold place at h
  simp only [bind_eq_ok_iff, require_eq_ok_iff, exists_const, pure_eq_ok_iff] at h
  obtain ⟨⟨hpos, -⟩, hopens, _, hallows, before, hbefore, after, hafter, t, ht, -, -, -, -, -, -, -, -,
    rfl⟩ := h
  obtain ⟨hparent, hsingle⟩ := allows_ok hallows
  obtain ⟨hrides, hamount, -⟩ := Wager.add_ok (hs.holds hbefore).idle hpos hafter
  have hbet := bet_setWager ht
  have hself : t.bet spot = after := by rw [hbet, if_pos rfl]
  refine ⟨hopens, hparent, hsingle, ?_, ?_, ?_, rfl⟩
  · show (t.bet spot).rides = true
    rw [hself, hrides]
  · show (t.bet spot).amount = _
    rw [hself, hamount, bet_of_wager hbefore]
  · intro other hne
    show t.bet other = s.bet other
    rw [hbet, if_neg hne]

/-! ## The course -/

/-- The seat that another became along the rolls of a table. -/
inductive Course (phase : Phase) (s : Seat κ) : List Roll → Seat κ → Prop where
  | start : Course phase s [] s
  /-- The wagers stay, as when money is collected. -/
  | aside {rolls : List Roll} {t u : Seat κ} (h : Course phase s rolls t)
    (hwagers : u.wagers = t.wagers) (htrackers : u.trackers = t.trackers) :
    Course phase s rolls u
  | place {rolls : List Roll} {t : Seat κ} {spot : Spot} {amount : Nat} {placed : Seat κ × Nat}
    (h : Course phase s rolls t)
    (hplace : t.place spot amount (phase.along rolls) = .ok placed) :
    Course phase s rolls placed.1
  | settle {rolls : List Roll} {t : Seat κ} {roll : Roll} {fieldTriple : Bool}
    {settled : Seat κ × Tally} (h : Course phase s rolls t)
    (hsettle : t.settle (phase.along rolls) roll fieldTriple = .ok settled) :
    Course phase s (rolls ++ [roll]) settled.1
  /-- With nothing riding, the seat takes no notice of a roll. -/
  | pass {rolls : List Roll} {t : Seat κ} (roll : Roll) (h : Course phase s rolls t)
    (hidle : t.hasRiding = false) : Course phase s (rolls ++ [roll]) t

theorem Course.sound {rolls : List Roll} (h : Course phase s rolls t) (hs : s.Sound) :
    t.Sound := by
  induction h with
  | start => exact hs
  | aside _ hwagers _ ih => exact ih.congr hwagers
  | place _ hplace ih => exact (place_ok ih hplace).sound
  | settle _ hsettle ih => exact (settle_ok ih hsettle).sound
  | pass _ _ _ ih => exact ih

/-- Settles a seat against one roll after another, while the line goes its way. -/
def settleAll (s : Seat κ) (phase : Phase) (fieldTriple : Bool) :
    List Roll → Except Fault (Seat κ × List Tally)
  | [] => .ok (s, [])
  | roll :: rolls => do
    let settled ← s.settle phase roll fieldTriple
    let rest ← settled.1.settleAll (phase.step roll.sum).1 fieldTriple rolls
    return (rest.1, settled.2 :: rest.2)

/-- A seat that is settled against the rolls to come goes on with its course. -/
theorem Course.settleAll {rolls more : List Roll} {fieldTriple : Bool} {u : Seat κ}
    {tallies : List Tally} (h : Course phase s rolls t)
    (hall : t.settleAll (phase.along rolls) fieldTriple more = .ok (u, tallies)) :
    Course phase s (rolls ++ more) u := by
  induction more generalizing rolls t tallies with
  | nil =>
    cases hall
    rwa [List.append_nil]
  | cons roll more ih =>
    simp only [Seat.settleAll, bind_eq_ok_iff, pure_eq_ok_iff] at hall
    obtain ⟨settled, hsettle, rest, hrest, heq⟩ := hall
    cases heq
    have hnext := ih (h.settle hsettle) (by rw [Phase.along_concat]; exact hrest)
    rwa [List.append_assoc] at hnext

theorem bet_of_not_hasRiding (h : s.hasRiding = false) (spot : Spot) :
    (s.bet spot).rides = false := by
  by_contra hc
  have hr : (s.bet spot).rides = true := by simpa using hc
  rw [hasRiding_of_wager (wager_of_rides hr) hr] at h
  cases h

end DiceHouse.Seat
