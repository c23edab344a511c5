import DiceHouse.Proofs.Seat.Totals

/-!
# When a settlement is granted

`Seat.Ruled` says what a settlement that was granted made of a seat. Whether one is granted hangs on
the wagers one by one too, and on one sum: each wager has a verdict, whatever ends has a reservation
to give back, the wagers that travel have somewhere to go, and the shares of all wagers together are
amounts that the totals of the seat can take. `Seat.Settleable` says so without speaking of an order
of the spots, and a settlement along any order is granted exactly then.

That the sum is what counts comes from the tally only growing on the way: if the last sum is an
amount, so is every one before it.
-/

namespace DiceHouse

/-! ## Sums that fit -/

namespace Tally

variable {t t' : Tally} {spot : Spot} {amount : Nat} {verdict : Verdict}

/-- All money in the tally is told in amounts. -/
structure Fits (t : Tally) : Prop where
  credited : t.credited < Amount.limit
  profit : t.profit < Amount.limit
  lost : t.lost < Amount.limit
  pushed : t.pushed < Amount.limit
  released : t.released < Amount.limit

theorem fits_zero : Fits 0 := by
  constructor <;> decide

/-- What fits after more was added did so before. -/
theorem Fits.of_add (h : (t + t').Fits) : t.Fits where
  credited := (Nat.le_add_right _ _).trans_lt h.credited
  profit := (Nat.le_add_right _ _).trans_lt h.profit
  lost := (Nat.le_add_right _ _).trans_lt h.lost
  pushed := (Nat.le_add_right _ _).trans_lt h.pushed
  released := (Nat.le_add_right _ _).trans_lt h.released

end Tally

namespace Verdict

variable {t t' : Tally} {spot : Spot} {amount : Nat} {verdict : Verdict}

/-- Adds a verdict on so much stake to a tally. -/
def charge (t : Tally) (spot : Spot) (amount : Nat) : Verdict → Except Fault Tally
  | win odds => t.win spot amount odds
  | lose => t.lose spot amount
  | push => t.push spot amount
  | carry | travel _ => .ok t

/-- A verdict that ends a wager has a reservation to give back, and odds that pay if it wins. -/
def Told (spot : Spot) (amount : Nat) : Verdict → Prop
  | win odds => odds.den ≠ 0 ∧ ∃ worst, spot.reserve amount = .ok worst
  | lose | push => ∃ worst, spot.reserve amount = .ok worst
  | carry | travel _ => True

theorem charge_eq_add (h : verdict.charge t spot amount = .ok t') :
    t' = t + verdict.tally spot amount := by
  cases verdict with
  | win odds => exact Tally.win_eq_add h
  | lose => exact Tally.lose_eq_add h
  | push => exact Tally.push_eq_add h
  | carry | travel n => exact (Except.ok.inj h).symm.trans (add_zero t).symm

/-- What was added could be told, and there was room for it. -/
theorem told_of_charge (ht : t.Fits) (h : verdict.charge t spot amount = .ok t') :
    verdict.Told spot amount ∧ t'.Fits := by
  cases verdict with
  | win odds =>
    unfold charge Tally.win at h
    simp only [bind_eq_ok_iff, Amount.add_eq_ok_iff, Odds.profit_eq_ok_iff, pure_eq_ok_iff] at h
    obtain ⟨-, ⟨hden, -, rfl⟩, -, ⟨-, rfl⟩, -, ⟨hcredited, rfl⟩, -, ⟨hprofit, rfl⟩, worst, hworst,
      -, ⟨hreleased, rfl⟩, rfl⟩ := h
    exact ⟨⟨hden, worst, hworst⟩, hcredited, hprofit, ht.lost, ht.pushed, hreleased⟩
  | lose =>
    unfold charge Tally.lose at h
    simp only [bind_eq_ok_iff, Amount.add_eq_ok_iff, pure_eq_ok_iff] at h
    obtain ⟨-, ⟨hlost, rfl⟩, worst, hworst, -, ⟨hreleased, rfl⟩, rfl⟩ := h
    exact ⟨⟨worst, hworst⟩, ht.credited, ht.profit, hlost, ht.pushed, hreleased⟩
  | push =>
    unfold charge Tally.push at h
    simp only [bind_eq_ok_iff, Amount.add_eq_ok_iff, pure_eq_ok_iff] at h
    obtain ⟨-, ⟨hcredited, rfl⟩, -, ⟨hpushed, rfl⟩, worst, hworst, -, ⟨hreleased, rfl⟩, rfl⟩ := h
    exact ⟨⟨worst, hworst⟩, hcredited, ht.profit, ht.lost, hpushed, hreleased⟩
  | carry | travel n => exact ⟨trivial, Except.ok.inj h ▸ ht⟩

/-- What can be told is added where there is room for it. -/
theorem charge_of_told (htold : verdict.Told spot amount)
    (hfits : (t + verdict.tally spot amount).Fits) :
    ∃ t', verdict.charge t spot amount = .ok t' := by
  have hreleased : ∀ {worst}, spot.reserve amount = .ok worst →
      t.released + spot.tied amount < Amount.limit → t.released + worst < Amount.limit :=
    fun hworst h => Spot.tied_of_reserve hworst ▸ h
  cases verdict with
  | win odds =>
    obtain ⟨hden, worst, hworst⟩ := htold
    exact Tally.win_of_lt hworst hden (hreleased hworst hfits.released) hfits.profit hfits.credited
  | lose =>
    obtain ⟨worst, hworst⟩ := htold
    exact Tally.lose_of_lt hworst (hreleased hworst hfits.released) hfits.lost
  | push =>
    obtain ⟨worst, hworst⟩ := htold
    exact Tally.push_of_lt hworst (hreleased hworst hfits.released) hfits.pushed hfits.credited
  | carry | travel n => exact ⟨t, rfl⟩

/-- A verdict is added to a tally exactly if it can be told and there is room for it. -/
theorem charge_eq_ok_iff (ht : t.Fits) : verdict.charge t spot amount = .ok t' ↔
    verdict.Told spot amount ∧ t' = t + verdict.tally spot amount ∧ t'.Fits := by
  constructor
  · intro h
    obtain ⟨htold, hfits⟩ := told_of_charge ht h
    exact ⟨htold, charge_eq_add h, hfits⟩
  · rintro ⟨htold, rfl, hfits⟩
    obtain ⟨t', h⟩ := charge_of_told htold hfits
    exact h.trans (congrArg _ (charge_eq_add h))

end Verdict

namespace Seat

variable {κ : Type} {s t u : Seat κ} {spot : Spot} {amount : Nat} {view : RollView}
  {verdict : Verdict} {tally : Tally}

/-! ## One spot -/

section Judge

variable {before : Seat κ} {p p' : Progress κ}

theorem judge_of_idle {other : Spot} (hmem : other ∈ Spot.order)
    (hr : (before.bet other).rides = false) : Progress.judge before view p other = .ok p := by
  obtain ⟨i, hi⟩ := Spot.exists_index_of_mem_order hmem
  have hw := wager_of_index (s := before) hi
  rw [← bet_of_wager hw] at hw
  unfold Progress.judge
  rw [hw, ok_bind, if_neg (by simp [hr])]
  rfl

/-- Judging a spot on which something rides can be refused for the tally only. -/
theorem judge_of_rides (hmem : spot ∈ Spot.order) (hr : (before.bet spot).rides = true)
    (hv : spot.verdict view = .ok verdict) :
    ∃ seat, p.seat.setWager spot (verdict.leaves (p.seat.bet spot)) = .ok seat ∧
      Progress.judge before view p spot = do
        let tally ← verdict.charge p.tally spot (before.bet spot).amount
        return ⟨seat, tally, p.moves ++ verdict.moves spot (before.bet spot).amount⟩ := by
  obtain ⟨i, hi⟩ := Spot.exists_index_of_mem_order hmem
  have hset := fun w => setWager_of_index (s := p.seat) (w := w) hi
  refine ⟨_, hset _, ?_⟩
  have hw := wager_of_rides hr
  unfold Progress.judge
  rw [hw, ok_bind, if_pos hr, hv, ok_bind]
  cases verdict with
  | win odds | lose | push =>
    simp only [hset, ok_bind, Verdict.moves, List.append_nil]
    rfl
  | carry =>
    have hnow := wager_of_index (s := p.seat) hi
    rw [← bet_of_wager hnow] at hnow
    simp only [hnow, hset, ok_bind, Verdict.moves, List.append_nil]
    rfl
  | travel n =>
    simp only [hset, ok_bind]
    rfl

end Judge

/-! ## The walk over the spots -/

/-- All that a settlement needs: each wager can be ruled on, the shares are amounts together, there
is a place for each wager that travels, and the seat can book the sum. -/
structure Settleable (s : Seat κ) (view : RollView) (tally : Tally) : Prop where
  decided : ∀ spot, (s.bet spot).rides = true → spot.verdict view = .ok (s.ruling view spot)
  told : ∀ spot, (s.bet spot).rides = true →
    (s.ruling view spot).Told spot (s.bet spot).amount
  sum : tally = (Spot.order.map (s.share view)).sum
  fits : tally.Fits
  lands : ∀ box n, s.ruling view box = .travel n →
    (∃ i, (box.landing n).index? = some i) ∧ (s.bet box).amount < Amount.limit
  pending : s.pending + tally.credited < Amount.limit
  counters : s.CountersFit tally

section Walk

variable {order rest : List Spot} {p p' : Progress κ}

/-- How far a walk has come that charged what it went past. -/
structure Charged (order : List Spot) (s : Seat κ) (view : RollView) (rest : List Spot)
    (p : Progress κ) : Prop extends Walked order s view rest p where
  known : ∀ spot ∈ rest, spot ∈ Spot.order
  rewritten : s.Rewritten p.seat
  fits : p.tally.Fits
  told : ∀ spot, spot ∉ rest → (s.bet spot).rides = true →
    (s.ruling view spot).Told spot (s.bet spot).amount

theorem Charged.begin (hs : s.Orderly) (horder : order.Perm Spot.order) :
    Charged order s view order ⟨{ s with trackers := view.trackers }, {}, []⟩ where
  toWalked := .begin hs horder
  known _ hmem := horder.mem_iff.mp hmem
  rewritten := ⟨s.wagers, view.trackers, rfl⟩
  fits := Tally.fits_zero
  told _ hmem hr := absurd (horder.mem_iff.mpr (hs.mem_order hr)) hmem

/-- What is judged was charged. -/
theorem Charged.judge (h : Charged order s view (spot :: rest) p)
    (hj : Progress.judge s view p spot = .ok p') : Charged order s view rest p' := by
  have hwalked := h.toWalked.judge hj
  have hmem : spot ∈ Spot.order := h.known spot List.mem_cons_self
  have hknown : ∀ other ∈ rest, other ∈ Spot.order := fun other ho =>
    h.known other (List.mem_cons_of_mem _ ho)
  obtain ⟨hspot, -⟩ := List.nodup_cons.mp h.nodup
  have hbehind : ∀ other, other ∉ rest → other ≠ spot → (s.bet other).rides = true →
      (s.ruling view other).Told other (s.bet other).amount := by
    intro other hrest hne hr
    exact h.told other (fun hc => (List.mem_cons.mp hc).elim hne hrest) hr
  by_cases hr : (s.bet spot).rides = true
  · have hv : spot.verdict view = .ok (s.ruling view spot) := hwalked.decided spot hspot hr
    have hrewritten := h.rewritten.judge hj
    obtain ⟨seat, -, heq⟩ := judge_of_rides hmem hr hv (p := p)
    rw [heq, bind_eq_ok_iff] at hj
    obtain ⟨tally, hcharge, hp⟩ := hj
    rw [pure_eq_ok_iff] at hp
    obtain ⟨htold, -, hfits⟩ := (Verdict.charge_eq_ok_iff h.fits).mp hcharge
    refine ⟨hwalked, hknown, hrewritten, hp ▸ hfits, fun other hrest hor => ?_⟩
    by_cases hc : other = spot
    · exact hc ▸ htold
    · exact hbehind other hrest hc hor
  · rw [judge_of_idle hmem (by simpa using hr)] at hj
    cases hj
    refine ⟨hwalked, hknown, h.rewritten, h.fits, fun other hrest hor => ?_⟩
    exact hbehind other hrest (by rintro rfl; exact hr hor) hor

/-- A walk goes on as long as the sum of all shares fits. -/
theorem Charged.judge_succeeds (h : Charged order s view (spot :: rest) p)
    (horder : order.Perm Spot.order) (hs : s.Settleable view tally) :
    ∃ p', Progress.judge s view p spot = .ok p' ∧ Charged order s view rest p' := by
  have hmem : spot ∈ Spot.order := h.known spot List.mem_cons_self
  obtain ⟨p', hj⟩ : ∃ p', Progress.judge s view p spot = .ok p' := by
    by_cases hr : (s.bet spot).rides = true
    · obtain ⟨seat, -, heq⟩ := judge_of_rides hmem hr (hs.decided spot hr) (p := p)
      have hfits : (p.tally + s.share view spot).Fits := by
        have htotal := h.tally
        rw [List.map_cons, List.sum_cons, ← add_assoc, (horder.map _).sum_eq, ← hs.sum] at htotal
        have hall : (p.tally + s.share view spot + (rest.map (s.share view)).sum).Fits := by
          rw [htotal]
          exact hs.fits
        exact hall.of_add
      have hcharge := (Verdict.charge_eq_ok_iff h.fits).mpr ⟨hs.told spot hr, rfl, hfits⟩
      rw [heq, hcharge]
      exact ⟨_, rfl⟩
    · exact ⟨p, judge_of_idle hmem (by simpa using hr)⟩
  exact ⟨p', hj, h.judge hj⟩

end Walk

/-! ## Arrivals -/

/-- Stake can arrive where there is none. -/
theorem land_of_free {i : Fin spotCount} (hi : spot.index? = some i)
    (hfree : (s.bet spot).amount = 0) (hlt : amount < Amount.limit) :
    ∃ wagers, s.land (spot, amount) = .ok { s with wagers } := by
  have hw := wager_of_index (s := s) hi
  rw [← bet_of_wager hw] at hw
  have hadd : Amount.add (s.bet spot).amount amount = .ok ((s.bet spot).amount + amount) :=
    Amount.add_of_lt (by omega)
  unfold land Wager.add
  rw [hw, ok_bind, hadd, ok_bind]
  split
  all_goals exact ⟨_, setWager_of_index hi⟩

section Arrivals

variable {moves : List (Spot × Nat)}

/-- What arrived had a place to go to, and was an amount. -/
theorem lands_of_foldlM_land (h : moves.foldlM land s = .ok t) :
    ∀ move ∈ moves, (∃ i, move.1.index? = some i) ∧ move.2 < Amount.limit := by
  induction moves generalizing s with
  | nil => exact fun move hm => absurd hm List.not_mem_nil
  | cons first moves ih =>
    rw [List.foldlM_cons, bind_eq_ok_iff] at h
    obtain ⟨u, hland, h⟩ := h
    intro move hm
    rcases List.mem_cons.mp hm with rfl | hm
    · unfold land at hland
      simp only [bind_eq_ok_iff] at hland
      obtain ⟨now, hnow, after, hadd, -⟩ := hland
      obtain ⟨i, hi, -, -⟩ := wager_ok hnow
      unfold Wager.add at hadd
      simp only [bind_eq_ok_iff, Amount.add_eq_ok_iff] at hadd
      obtain ⟨-, ⟨hlt, rfl⟩, -⟩ := hadd
      exact ⟨⟨i, hi⟩, (Nat.le_add_left _ _).trans_lt hlt⟩
    · exact ih h move hm

/-- Stake arrives on spots of its own where there is none. -/
theorem foldlM_land_of_free (hnodup : (moves.map Prod.fst).Nodup)
    (hfree : ∀ move ∈ moves, (s.bet move.1).amount = 0)
    (hlands : ∀ move ∈ moves, (∃ i, move.1.index? = some i) ∧ move.2 < Amount.limit) :
    ∃ t, moves.foldlM land s = .ok t := by
  induction moves generalizing s with
  | nil => exact ⟨s, rfl⟩
  | cons first moves ih =>
    obtain ⟨hfirst, hrest⟩ := List.nodup_cons.mp hnodup
    obtain ⟨⟨i, hi⟩, hlt⟩ := hlands first List.mem_cons_self
    obtain ⟨wagers, hland⟩ := land_of_free hi (hfree first List.mem_cons_self) hlt
    obtain ⟨after, -, hbet⟩ := land_bet hland
    rw [List.foldlM_cons, hland, ok_bind]
    refine ih hrest (fun move hm => ?_) fun move hm => hlands move (List.mem_cons_of_mem _ hm)
    have hne : move.1 ≠ first.1 := fun hc => hfirst (hc ▸ List.mem_map_of_mem hm)
    rw [hbet, if_neg hne]
    exact hfree move (List.mem_cons_of_mem _ hm)

end Arrivals

/-! ## The whole settlement -/

section Whole

variable {order : List Spot} {phase : Phase} {roll : Roll} {fieldTriple : Bool}

theorem book_eq_ok_iff : (∃ t, s.book tally = .ok t) ↔
    s.pending + tally.credited < Amount.limit ∧ s.CountersFit tally := by
  constructor
  · rintro ⟨t, h⟩
    unfold book at h
    simp only [bind_eq_ok_iff, Amount.add_eq_ok_iff] at h
    obtain ⟨-, ⟨hpending, -⟩, -, ⟨hwon, -⟩, -, ⟨hlost, -⟩, -, ⟨hpushed, -⟩, -⟩ := h
    exact ⟨hpending, hwon, hlost, hpushed⟩
  · exact fun h => book_of_fits h.1 h.2

/-- What was settled along any order of the spots could be. -/
theorem settleable_of_settleAlong (hs : s.Orderly) (horder : order.Perm Spot.order)
    (h : settleAlong order s phase roll fieldTriple = .ok (t, tally)) :
    ∃ view, s.seen phase roll fieldTriple = .ok view ∧ s.Settleable view tally := by
  obtain ⟨u, hu, hbook⟩ := book_of_settleAlong h
  obtain ⟨hpending, hcounters⟩ := book_eq_ok_iff.mp ⟨t, hbook⟩
  rw [hu.pending] at hpending
  rw [hu.countersFit_iff] at hcounters
  rw [settleAlong_eq] at h
  simp only [bind_eq_ok_iff, pure_eq_ok_iff] at h
  obtain ⟨view, hseen, p, hp, landed, hland, _, -, heq⟩ := h
  cases heq
  have hend : Charged order s view [] p :=
    foldlM_induction (Charged order s view) (fun spot rest p p' hinv hj => hinv.judge hj)
      (.begin hs horder) hp
  refine ⟨view, hseen, fun spot => hend.decided spot List.not_mem_nil,
    fun spot => hend.told spot List.not_mem_nil, hend.tally_eq horder, hend.fits, fun box n hn => ?_,
    hpending, hcounters⟩
  exact lands_of_foldlM_land hland _ ((hend.mem_moves horder hs).mpr ⟨box, n, hn, rfl⟩)

/-- What can be settled is, along any order of the spots. -/
theorem settleAlong_of_settleable (hs : s.Orderly) (horder : order.Perm Spot.order)
    (hseen : s.seen phase roll fieldTriple = .ok view) (h : s.Settleable view tally) :
    ∃ t, settleAlong order s phase roll fieldTriple = .ok (t, tally) := by
  obtain ⟨p, hp, hend⟩ := foldlM_progress (Charged order s view)
    (fun spot rest p hinv => hinv.judge_succeeds horder h) (.begin hs horder)
  have htally : p.tally = tally := (hend.tally_eq horder).trans h.sum.symm
  obtain ⟨landed, hland⟩ : ∃ landed, p.moves.foldlM land p.seat = .ok landed := by
    refine foldlM_land_of_free (hend.moves_nodup horder) (fun move hm => ?_) fun move hm => ?_
    all_goals obtain ⟨box, n, hn, rfl⟩ := (hend.mem_moves horder hs).mp hm
    · rw [hend.behind _ List.not_mem_nil]
      exact (hs.free hn).2
    · exact h.lands box n hn
  have hlanded : s.Rewritten landed.restTrackers :=
    Rewritten.restTrackers
      (foldlM_induction (fun _ u => s.Rewritten u) (fun move _ u u' hinv => hinv.land)
        hend.rewritten hland)
  obtain ⟨t, hbook⟩ : ∃ t, landed.restTrackers.book tally = .ok t :=
    book_of_fits (hlanded.pending.symm ▸ h.pending) (hlanded.countersFit_iff.mpr h.counters)
  refine ⟨t, ?_⟩
  rw [settleAlong_eq, hseen, ok_bind, hp, ok_bind, hland, ok_bind, htally, hbook]
  rfl

end Whole

end Seat

end DiceHouse
