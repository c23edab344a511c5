import DiceHouse.Proofs.Seat.Decided
import DiceHouse.Proofs.Seat.Rulings
import DiceHouse.Proofs.Table.Line

/-!
# Many bookings

What several settlements make of a table is told by the sum of their tallies and by how many there
were; in which order they were booked cannot be seen. `Table.Booked` says so. The line has no part in
it: what a roll does to the line, and which turn a seat gets, depends on nothing that is booked.
-/

namespace DiceHouse.Table

variable {t t' u : Table} {total tally : Tally} {count n : Nat} {roll : Roll}

attribute [ext] Table

/-! ## Sums of tallies -/

/-- What settlements of so much in total make of a table. -/
structure Booked (t : Table) (total : Tally) (count : Nat) (t' : Table) : Prop where
  line : t'.line = t.line
  bankroll : t'.bankroll + total.profit = t.bankroll + total.lost
  reserved : t'.reserved + total.released = t.reserved
  wagered : t'.totalWagered = t.totalWagered
  collected : t'.totalCollected = t.totalCollected + total.lost
  payouts : t'.totalPayouts = t.totalPayouts + total.profit
  version : t'.version = (fun v => Amount.addWrapping v 1)^[count] t.version

theorem Booked.refl (t : Table) : t.Booked 0 0 t := ⟨rfl, rfl, rfl, rfl, rfl, rfl, rfl⟩

/-- One more booking adds its tally. -/
theorem Booked.book (h : t.Booked total count t')
    (hbook : t'.book tally.profit tally.lost tally.released = .ok u) :
    t.Booked (total + tally) (count + 1) u := by
  have hline := line_book hbook
  unfold Table.book at hbook
  simp only [bind_eq_ok_iff, require_eq_ok_iff, exists_const, Amount.add_eq_ok_iff,
    Amount.sub_eq_ok_iff, pure_eq_ok_iff] at hbook
  obtain ⟨grown, ⟨-, rfl⟩, hprofit, reserved, ⟨hreleased, rfl⟩, collected, ⟨-, rfl⟩, payouts,
    ⟨-, rfl⟩, rfl⟩ := hbook
  have hsums : (total + tally).profit = total.profit + tally.profit ∧
      (total + tally).lost = total.lost + tally.lost ∧
      (total + tally).released = total.released + tally.released := ⟨rfl, rfl, rfl⟩
  obtain ⟨hprofits, hlosts, hreleases⟩ := hsums
  have hbankroll := h.bankroll
  have hreserved := h.reserved
  refine ⟨hline.trans h.line, ?_, ?_, h.wagered, ?_, ?_, ?_⟩
  · dsimp only
    omega
  · dsimp only
    omega
  · dsimp only
    rw [h.collected, hlosts, Nat.add_assoc]
  · dsimp only
    rw [h.payouts, hprofits, Nat.add_assoc]
  · rw [Function.iterate_succ_apply', ← h.version]

/-- The sum and the count are all there is to it. -/
theorem Booked.unique (h : t.Booked total count t') (h' : t.Booked total count u) : t' = u := by
  have hline := h.line.trans h'.line.symm
  simp only [Table.line, Line.mk.injEq] at hline
  obtain ⟨hepoch, hpoint, hflag, hdie1, hdie2, hlog, hrolls⟩ := hline
  have hbankroll : t'.bankroll = u.bankroll :=
    Nat.add_right_cancel (h.bankroll.trans h'.bankroll.symm)
  have hreserved : t'.reserved = u.reserved :=
    Nat.add_right_cancel (h.reserved.trans h'.reserved.symm)
  have hwagered := h.wagered.trans h'.wagered.symm
  have hcollected := h.collected.trans h'.collected.symm
  have hpayouts := h.payouts.trans h'.payouts.symm
  have hversion := h.version.trans h'.version.symm
  exact Table.ext hepoch hversion hpoint hflag hdie1 hdie2 hlog hrolls hbankroll hreserved hwagered
    hcollected hpayouts

/-- What is left of the room for lifetime totals after some bookings. -/
theorem Booked.countersFit_iff (h : t.Booked total count t') :
    t'.CountersFit tally ↔ t.CountersFit (total + tally) := by
  unfold CountersFit
  rw [h.collected, h.payouts, Nat.add_assoc, Nat.add_assoc]
  exact Iff.rfl

/-- Lifetime totals that can take a sum can take a part of it. -/
theorem CountersFit.left (h : t.CountersFit (total + tally)) : t.CountersFit total := by
  obtain ⟨hcollected, hpayouts⟩ := h
  have hlost : (total + tally).lost = total.lost + tally.lost := rfl
  have hprofit : (total + tally).profit = total.profit + tally.profit := rfl
  unfold CountersFit
  omega

/-! ## The line alone -/

theorem phaseBefore_congr (h : t'.line = t.line) : t'.phaseBefore n = t.phaseBefore n := by
  simp only [line, Line.mk.injEq] at h
  obtain ⟨hepoch, -, -, -, -, hlog, -⟩ := h
  unfold phaseBefore
  rw [hepoch, hlog]

/-- Which turn a seat gets depends on the line alone. -/
theorem turn_congr (h : t'.line = t.line) (epoch : Nat) (hasRiding : Bool) :
    t'.turn epoch hasRiding n = t.turn epoch hasRiding n := by
  have hepoch : t'.epoch = t.epoch := congrArg Line.epoch h
  unfold turn
  rw [hepoch, phaseBefore_congr h]

/-- The phase in which a seat is judged is one that a line can be in. -/
theorem valid_of_turn {epoch : Nat} {hasRiding : Bool} {phase : Phase}
    (h : t.turn epoch hasRiding n = .ok (.settle phase)) : phase.Valid := by
  unfold turn at h
  simp only [bind_eq_ok_iff] at h
  obtain ⟨-, -, -, -, h⟩ := h
  split at h
  · simp only [bind_eq_ok_iff, pure_eq_ok_iff, Turn.settle.injEq] at h
    obtain ⟨before, hbefore, rfl⟩ := h
    unfold phaseBefore at hbefore
    simp only [bind_eq_ok_iff] at hbefore
    obtain ⟨-, -, hread⟩ := hbefore
    unfold Phase.ofPoint at hread
    split at hread
    · cases hread
      trivial
    · split at hread
      · next hpoint =>
        cases hread
        exact hpoint
      · cases hread
  · simp only [bind_eq_ok_iff, pure_eq_ok_iff, reduceCtorEq, and_false, exists_false] at h

/-- A seat is judged against the round after the one up to which it was settled. -/
theorem round_of_turn {epoch : Nat} {hasRiding : Bool} {phase : Phase}
    (h : t.turn epoch hasRiding n = .ok (.settle phase)) : n = epoch + 1 := by
  unfold turn at h
  simp only [bind_eq_ok_iff] at h
  obtain ⟨-, -, -, -, h⟩ := h
  split at h
  · assumption
  · simp only [bind_eq_ok_iff, pure_eq_ok_iff, reduceCtorEq, and_false, exists_false] at h

/-- A table that has caught up with a round has its roll, whatever was booked since. -/
theorem catchUp_again {q : Table × Option Call} (h : t.catchUp n roll = .ok q)
    (hline : u.line = q.1.line) : u.catchUp n roll = .ok (u, none) := by
  have hle : n ≤ u.epoch := by
    have hepoch : u.epoch = q.1.epoch := congrArg Line.epoch hline
    rw [hepoch]
    rcases catchUp_eq_ok_iff.mp h with ⟨hle, rfl⟩ | ⟨t', call, htake, rfl⟩
    · exact hle
    · obtain ⟨-, -, before, -, hq⟩ := applyRoll_eq_ok_iff.mp htake
      cases hq
      exact Nat.le_refl n
  exact catchUp_eq_ok_iff.mpr (.inl ⟨hle, rfl⟩)

end DiceHouse.Table
