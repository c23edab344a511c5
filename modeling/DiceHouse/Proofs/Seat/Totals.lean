import DiceHouse.Proofs.Seat.Decided
import DiceHouse.Proofs.Seat.Place
import DiceHouse.Proofs.Seat.Rulings

/-!
# What a seat books

Besides its wagers a seat keeps what it staked, won, lost and got back in its life, and what waits
to be collected. Stake is counted when it is placed; a settlement or a forfeiture adds its tally and
touches nothing else of this, whatever it does to the wagers.
-/

namespace DiceHouse.Seat

variable {κ : Type} {s t u : Seat κ} {spot : Spot} {amount : Nat} {phase : Phase} {roll : Roll}
  {fieldTriple : Bool} {tally : Tally} {settled : Seat κ × Tally} {order : List Spot}

/-- What booking a tally makes of the totals of a seat. -/
structure Credited (s : Seat κ) (tally : Tally) (t : Seat κ) : Prop where
  owner : t.owner = s.owner
  epoch : t.epoch = s.epoch
  wagered : t.totalWagered = s.totalWagered
  pending : t.pending = s.pending + tally.credited
  won : t.totalWon = s.totalWon + tally.profit
  lost : t.totalLost = s.totalLost + tally.lost
  pushed : t.totalPushed = s.totalPushed + tally.pushed

/-- All of a seat but its wagers and trackers hangs on what was booked. -/
theorem Credited.unique (ht : s.Credited tally t) (hu : s.Credited tally u)
    (hwagers : t.wagers = u.wagers) (htrackers : t.trackers = u.trackers) : t = u := by
  cases t
  cases u
  exact (Seat.mk.injEq ..).mpr ⟨ht.owner.trans hu.owner.symm, ht.epoch.trans hu.epoch.symm, hwagers,
    htrackers, ht.pending.trans hu.pending.symm, ht.wagered.trans hu.wagered.symm,
    ht.won.trans hu.won.symm, ht.lost.trans hu.lost.symm, ht.pushed.trans hu.pushed.symm⟩

theorem Rewritten.credited (h : s.Rewritten u) (hbook : u.book tally = .ok t) :
    s.Credited tally t := by
  obtain ⟨wagers, trackers, rfl⟩ := h
  unfold book at hbook
  simp only [bind_eq_ok_iff, Amount.add_eq_ok_iff, pure_eq_ok_iff] at hbook
  obtain ⟨-, ⟨-, rfl⟩, -, ⟨-, rfl⟩, -, ⟨-, rfl⟩, -, ⟨-, rfl⟩, rfl⟩ := hbook
  exact ⟨rfl, rfl, rfl, rfl, rfl, rfl, rfl⟩

theorem Rewritten.judge {before : Seat κ} {view : RollView} {p p' : Progress κ}
    (h : s.Rewritten p.seat) (hj : Progress.judge before view p spot = .ok p') :
    s.Rewritten p'.seat := by
  rcases judge_ruled hj with ⟨-, rfl⟩ | ⟨-, verdict, seat, -, hset, rfl⟩
  · exact h
  · exact h.setWager hset

/-- A settlement writes wagers and trackers, and books its tally, in whatever order it goes through
the spots. -/
theorem book_of_settleAlong (h : settleAlong order s phase roll fieldTriple = .ok (t, tally)) :
    ∃ u, s.Rewritten u ∧ u.book tally = .ok t := by
  rw [settleAlong_eq] at h
  simp only [bind_eq_ok_iff, pure_eq_ok_iff] at h
  obtain ⟨view, -, p, hp, landed, hland, u, hbook, heq⟩ := h
  cases heq
  have hwalk : s.Rewritten p.seat :=
    foldlM_induction (fun _ p => s.Rewritten p.seat) (fun spot _ p p' hinv => hinv.judge)
      ⟨s.wagers, view.trackers, rfl⟩ hp
  have hlanded : s.Rewritten landed :=
    foldlM_induction (fun _ u => s.Rewritten u) (fun move _ u u' hinv => hinv.land) hwalk hland
  exact ⟨landed.restTrackers, hlanded.restTrackers, hbook⟩

theorem book_of_settle (h : s.settle phase roll fieldTriple = .ok (t, tally)) :
    ∃ u, s.Rewritten u ∧ u.book tally = .ok t := book_of_settleAlong h

theorem settleAlong_credited (h : settleAlong order s phase roll fieldTriple = .ok settled) :
    s.Credited settled.2 settled.1 := by
  obtain ⟨u, hu, hbook⟩ := book_of_settleAlong h
  exact hu.credited hbook

theorem settle_credited (h : s.settle phase roll fieldTriple = .ok settled) :
    s.Credited settled.2 settled.1 := settleAlong_credited h

/-- So does a forfeiture, and it credits nothing. -/
theorem forfeit_credited (h : s.forfeit = .ok settled) :
    s.Credited settled.2 settled.1 ∧ settled.2.credited = 0 := by
  unfold forfeit at h
  simp only [bind_eq_ok_iff, pure_eq_ok_iff] at h
  obtain ⟨q, hq, t, hbook, rfl⟩ := h
  have hwalk : s.Rewritten q.1 ∧ q.2.credited = 0 := by
    refine foldlM_induction (fun _ q => s.Rewritten q.1 ∧ q.2.credited = 0)
      (fun spot _ q q' hinv hstep => ?_) ⟨⟨s.wagers, s.trackers, rfl⟩, rfl⟩ hq
    obtain ⟨w, -, ⟨-, rfl⟩ | ⟨-, tally, seat, ht, hset, rfl⟩⟩ := surrender_ok hstep
    · exact hinv
    · obtain ⟨worst, -, rfl⟩ := Tally.lose_ok ht
      exact ⟨hinv.1.setWager hset, hinv.2⟩
  exact ⟨hwalk.1.restTrackers.credited hbook, hwalk.2⟩

/-- Stake is counted when it is placed, and is neither won nor lost by that. -/
theorem place_totals {placed : Seat κ × Nat} (h : s.place spot amount phase = .ok placed) :
    placed.1.totalWagered = s.totalWagered + amount ∧ placed.1.totalWon = s.totalWon ∧
      placed.1.totalLost = s.totalLost := by
  unfold place at h
  simp only [bind_eq_ok_iff, Amount.add_eq_ok_iff, pure_eq_ok_iff] at h
  obtain ⟨-, -, -, -, -, -, -, -, after, -, t, hset, -, ⟨-, rfl⟩, -, -, -, -, -, -, rfl⟩ := h
  obtain ⟨i, -, -, rfl⟩ := setWager_ok hset
  exact ⟨rfl, rfl, rfl⟩

end DiceHouse.Seat
