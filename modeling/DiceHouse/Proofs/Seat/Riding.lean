import DiceHouse.Proofs.Seat.Place
import DiceHouse.Proofs.Seat.Settle

/-!
# Whether anything rides

A seat with a wager that rides waits for the roll of the round after its own. A bet makes a seat
ride, and a forfeiture leaves nothing riding: it goes through all spots on which a sound seat can
have a wager at all. A forfeiture is refused for nothing but an amount that is too large or a wager
on no spot.
-/

namespace DiceHouse.Seat

variable {κ : Type} {s t : Seat κ} {spot : Spot} {w : Wager}

theorem hasRiding_eq_true_iff :
    s.hasRiding = true ↔ ∃ i : Fin spotCount, (s.wagers.get i).rides = true := by
  unfold hasRiding
  rw [Vector.any_eq_true]
  constructor
  · rintro ⟨n, hn, hr⟩
    exact ⟨⟨n, hn⟩, hr⟩
  · rintro ⟨i, hr⟩
    exact ⟨i.val, i.isLt, hr⟩

theorem hasRiding_of_wager (h : s.wager spot = .ok w) (hr : w.rides = true) :
    s.hasRiding = true := by
  obtain ⟨i, -, -, rfl⟩ := wager_ok h
  exact hasRiding_eq_true_iff.mpr ⟨i, hr⟩

theorem epoch_setWager (h : s.setWager spot w = .ok t) : t.epoch = s.epoch := by
  obtain ⟨i, -, -, rfl⟩ := setWager_ok h
  rfl

/-- A bet rides, and the seat waits for the same roll as before. -/
theorem place_rides {amount : Nat} {phase : Phase} {placed : Seat κ × Nat} (hs : s.Sound)
    (h : s.place spot amount phase = .ok placed) :
    placed.1.epoch = s.epoch ∧ placed.1.hasRiding = true := by
  unfold place at h
  simp only [bind_eq_ok_iff, require_eq_ok_iff, exists_const, pure_eq_ok_iff] at h
  obtain ⟨⟨hpos, -⟩, -, -, -, before, hbefore, after, hafter, t, ht, -, -, -, -, -, -, -, -, rfl⟩ :=
    h
  obtain ⟨hrides, -, -⟩ := Wager.add_ok (hs.holds hbefore).idle hpos hafter
  have hepoch : t.epoch = s.epoch := epoch_setWager ht
  have hriding : t.hasRiding = true := hasRiding_of_wager (wager_setWager ht) hrides
  exact ⟨hepoch, hriding⟩

/-! ## Forfeitures -/

/-- How far a forfeiture has come: nothing rides any more but on the spots that are left. -/
structure Surrendering (before : Seat κ) (rest : List Spot) (q : Seat κ × Tally) : Prop where
  settling : Settling before rest ⟨q.1, q.2, []⟩
  gone : ∀ i, Spot.ofIndex i ∉ rest → (q.1.wagers.get i).rides = false

variable {before : Seat κ} {rest : List Spot} {q q' : Seat κ × Tally}

theorem Surrendering.surrender (h : Surrendering before (spot :: rest) q)
    (hj : Seat.surrender before q spot = .ok q') : Surrendering before rest q' := by
  refine ⟨h.settling.surrender hj, fun i hi => ?_⟩
  -- only the wager on this spot is written
  obtain ⟨w, hw, ⟨hr, rfl⟩ | ⟨-, tally, seat, -, hset, rfl⟩⟩ := surrender_ok hj
  · by_cases hc : Spot.ofIndex i = spot
    · have hold := h.settling.wager_eq hw
      rw [← hc, wager_ofIndex] at hold
      cases hold
      exact hr
    · exact h.gone i fun hmem => (List.mem_cons.mp hmem).elim hc hi
  · obtain ⟨j, -, hspot, rfl⟩ := setWager_ok hset
    dsimp only
    rw [get_set]
    split
    · rfl
    · next hne =>
      refine h.gone i fun hmem => ?_
      rcases List.mem_cons.mp hmem with hc | hrest
      · refine hne (Option.some.inj ?_)
        rw [← Spot.index?_ofIndex i, hc, ← hspot, Spot.index?_ofIndex]
      · exact hi hrest

/-- Nothing rides on a spot that a roll does not decide. -/
theorem Sound.rides_of_not_mem_order (hs : s.Sound) {i : Fin spotCount}
    (hi : Spot.ofIndex i ∉ Spot.order) : (s.wagers.get i).rides = false := by
  by_cases hr : (s.wagers.get i).rides = true
  · obtain ⟨r, hreserve⟩ := (hs i).reserved hr
    exact absurd (Spot.mem_order_of_reserve hreserve) hi
  · simpa using hr

/-- After a forfeiture nothing rides. -/
theorem forfeit_clears {settled : Seat κ × Tally} (hs : s.Sound) (h : s.forfeit = .ok settled) :
    settled.1.hasRiding = false := by
  unfold forfeit at h
  simp only [bind_eq_ok_iff, pure_eq_ok_iff] at h
  obtain ⟨q, hq, t, hbook, rfl⟩ := h
  have hend : Surrendering s [] q := by
    refine foldlM_induction (Surrendering s) (fun spot rest q q' hinv => hinv.surrender) ?_ hq
    exact ⟨Settling.begin hs order_nodup s.trackers, fun i hi => hs.rides_of_not_mem_order hi⟩
  have hwagers : t.wagers = q.1.wagers := (book_ok hbook).1
  refine Bool.eq_false_iff.mpr fun hr => ?_
  obtain ⟨i, hi⟩ := hasRiding_eq_true_iff.mp hr
  dsimp only at hi
  rw [hwagers, hend.gone i List.not_mem_nil] at hi
  cases hi

/-! What a forfeiture can be refused for. -/

/-- A refusal for want of room or of a number, which is none of the rules of the game. -/
def Plain (f : Fault) : Prop := f = .overflow ∨ f = .invalidPoint

theorem plain_add (a b : Nat) : RefusedOnly Plain (Amount.add a b) := by
  intro f h
  unfold Amount.add Amount.fit at h
  split at h
  · cases h
  · exact .inl (Except.error.inj h).symm

theorem plain_reserve (spot : Spot) (amount : Nat) : RefusedOnly Plain (spot.reserve amount) := by
  intro f h
  unfold Spot.reserve at h
  rcases bind_eq_error_iff.mp h with hworst | ⟨worst, -, hprofit⟩
  · unfold Spot.worstOdds Odds.taken Odds.laid Odds.place Odds.hardway Odds.yes Odds.no Odds.next
      at hworst
    repeat' split at hworst
    all_goals cases hworst
    all_goals exact .inr rfl
  · unfold Odds.profit Amount.fit at hprofit
    repeat' split at hprofit
    all_goals cases hprofit
    all_goals exact .inl rfl

theorem plain_wager (s : Seat κ) (spot : Spot) : RefusedOnly Plain (s.wager spot) := by
  intro f h
  unfold wager at h
  split at h
  · cases h
  · exact .inr (Except.error.inj h).symm

theorem plain_setWager (s : Seat κ) (spot : Spot) (w : Wager) :
    RefusedOnly Plain (s.setWager spot w) := by
  intro f h
  unfold setWager at h
  split at h
  · cases h
  · exact .inr (Except.error.inj h).symm

theorem plain_lose (tally : Tally) (spot : Spot) (amount : Nat) :
    RefusedOnly Plain (tally.lose spot amount) := by
  unfold Tally.lose
  refine (plain_add _ _).bind fun lost => (plain_reserve _ _).bind fun worst => ?_
  exact (plain_add _ _).bind fun released => refusedOnly_pure _

theorem plain_surrender (before : Seat κ) (q : Seat κ × Tally) (spot : Spot) :
    RefusedOnly Plain (Seat.surrender before q spot) := by
  unfold Seat.surrender
  refine (plain_wager _ _).bind fun w => ?_
  split
  · refine (plain_lose _ _ _).bind fun tally => ?_
    exact (plain_setWager _ _ _).bind fun seat => refusedOnly_pure _
  · exact refusedOnly_pure _

theorem plain_book (s : Seat κ) (tally : Tally) : RefusedOnly Plain (s.book tally) := by
  unfold book
  refine (plain_add _ _).bind fun pending => (plain_add _ _).bind fun won => ?_
  refine (plain_add _ _).bind fun lost => (plain_add _ _).bind fun pushed => ?_
  exact refusedOnly_pure _

theorem plain_forfeit (s : Seat κ) : RefusedOnly Plain s.forfeit := by
  unfold forfeit
  refine (refusedOnly_foldlM (plain_surrender s) _ _).bind fun q => ?_
  exact (plain_book _ _).bind fun t => refusedOnly_pure _

end DiceHouse.Seat
