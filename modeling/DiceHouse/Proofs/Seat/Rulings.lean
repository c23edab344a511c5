import DiceHouse.Proofs.Seat.Settle
import Mathlib.Algebra.BigOperators.Group.List.Lemmas

/-!
# What a settlement rules on each wager

A settlement goes through the spots one after another, but what becomes of one wager hangs on that
wager alone: `Seat.ruling` is the verdict passed on it, `Verdict.leaves` what stays in its place and
`Seat.share` what it adds to the tally. So the tally of a settlement is the sum of the shares. Wagers
that travel are the one way in which spots touch each other: the wager that arrives on a number finds
none there, since the roll that sent it off decided the wager on that number.

`Walked` is the invariant of the walk over the spots: what is behind was ruled on, what is ahead is as
it was. `settle_ruled` puts the walk, the arrivals and the booking together.
-/

namespace DiceHouse

/-! ## Adding tallies -/

namespace Tally

attribute [ext] Tally

instance : Zero Tally := ⟨{}⟩

instance : Add Tally where
  add a b :=
    { credited := a.credited + b.credited
      profit := a.profit + b.profit
      lost := a.lost + b.lost
      pushed := a.pushed + b.pushed
      released := a.released + b.released
      resolved := a.resolved + b.resolved }

instance : AddCommMonoid Tally where
  add_assoc a b c := by ext <;> exact Nat.add_assoc _ _ _
  zero_add a := by ext <;> exact Nat.zero_add _
  add_zero a := by ext <;> rfl
  add_comm a b := by ext <;> exact Nat.add_comm _ _
  nsmul := nsmulRec

@[simp] theorem lost_add (a b : Tally) : (a + b).lost = a.lost + b.lost := rfl

@[simp] theorem profit_add (a b : Tally) : (a + b).profit = a.profit + b.profit := rfl

end Tally

/-! ## Verdicts -/

namespace Verdict

/-- What a verdict leaves in the place of a wager. -/
def leaves (w : Wager) : Verdict → Wager
  | win _ => .cleared .won
  | lose => .cleared .lost
  | push => .cleared .pushed
  | carry => w.carry
  | travel _ => .cleared .none

/-- What a verdict on so much stake adds to a tally. -/
def tally (spot : Spot) (amount : Nat) : Verdict → Tally
  | win odds =>
    { credited := amount + odds.gain amount
      profit := odds.gain amount
      released := spot.tied amount
      resolved := 1 }
  | lose => { lost := amount, released := spot.tied amount, resolved := 1 }
  | push =>
    { credited := amount, pushed := amount, released := spot.tied amount, resolved := 1 }
  | carry | travel _ => 0

/-- The stake that a verdict sends off, with the spot that it goes to. -/
def moves (spot : Spot) (amount : Nat) : Verdict → List (Spot × Nat)
  | travel n => [(spot.landing n, amount)]
  | _ => []

end Verdict

namespace Tally

variable {t t' : Tally} {spot : Spot} {amount : Nat} {odds : Odds}

theorem win_eq_add (h : t.win spot amount odds = .ok t') :
    t' = t + (Verdict.win odds).tally spot amount := by
  obtain ⟨profit, worst, hp, hw, rfl⟩ := win_ok h
  obtain ⟨-, -, rfl⟩ := Odds.profit_eq_ok_iff.mp hp
  rw [← Spot.tied_of_reserve hw]
  rfl

theorem lose_eq_add (h : t.lose spot amount = .ok t') :
    t' = t + Verdict.lose.tally spot amount := by
  obtain ⟨worst, hw, rfl⟩ := lose_ok h
  rw [← Spot.tied_of_reserve hw]
  rfl

theorem push_eq_add (h : t.push spot amount = .ok t') :
    t' = t + Verdict.push.tally spot amount := by
  obtain ⟨worst, hw, rfl⟩ := push_ok h
  rw [← Spot.tied_of_reserve hw]
  rfl

end Tally

/-- The roll that sends a wager off decides the one that is on its number. -/
theorem Spot.verdict_landing {spot : Spot} {view : RollView} {n : Nat} (h : spot.verdict view = .ok (.travel n)) :
    (spot.landing n).verdict view = .ok (.win .even) ∨
      (spot.landing n).verdict view = .ok .lose := by
  rcases Spot.verdict_travel h with rfl | rfl
  · simp only [Spot.verdict] at h
    repeat' split at h
    all_goals cases h
    refine .inl ?_
    simp [Spot.landing, Spot.verdict]
  · simp only [Spot.verdict] at h
    repeat' split at h
    all_goals cases h
    refine .inr ?_
    have hseven : view.sum ≠ 7 := by
      intro hc
      simp_all [Dice.isNatural]
    simp [Spot.landing, Spot.verdict, hseven]

/-- A wager that has just arrived on its number. -/
def Wager.arrived (amount : Nat) : Wager :=
  ⟨amount, WagerStage.carried.code, WagerEnding.none.code⟩

namespace Wager

variable {w : Wager} {amount : Nat}

theorem carry_of_not_rides (h : w.rides = false) : w.carry = w := if_neg (by simp [h])

theorem rides_arrived (h : 0 < amount) : (arrived amount).rides = true := by
  simp [arrived, rides, stage, WagerStage.code, WagerStage.ofCode?, h]

/-- Stake that arrives where there is none is all that is there. -/
theorem carry_add {v : Wager} (hr : w.rides = false) (hw : w.amount = 0) (hpos : 0 < amount)
    (h : w.add amount = .ok v) : v.carry = arrived amount := by
  unfold add at h
  simp only [bind_eq_ok_iff, Amount.add_eq_ok_iff, hr, hw, Nat.zero_add] at h
  obtain ⟨total, ⟨-, rfl⟩, h⟩ := h
  rw [if_neg Bool.false_ne_true, pure_eq_ok_iff] at h
  subst h
  have hrides : (⟨total, WagerStage.fresh.code, WagerEnding.none.code⟩ : Wager).rides = true := by
    simp [rides, stage, WagerStage.code, WagerStage.ofCode?, hpos]
  exact if_pos hrides

end Wager

namespace Seat

variable {κ : Type} {s t : Seat κ} {spot other : Spot} {v w : Wager} {view : RollView}

/-! ## The wager on a spot -/

/-- The wager on a spot, blank where there is no such spot. -/
def bet (s : Seat κ) (spot : Spot) : Wager :=
  match spot.index? with
  | some i => s.wagers.get i
  | none => .blank

theorem bet_of_wager (h : s.wager spot = .ok w) : s.bet spot = w := by
  obtain ⟨i, hi, -, rfl⟩ := wager_ok h
  unfold bet
  rw [hi]

theorem bet_ofIndex (s : Seat κ) (i : Fin spotCount) : s.bet (Spot.ofIndex i) = s.wagers.get i :=
  bet_of_wager (wager_ofIndex s i)

theorem wager_of_rides (h : (s.bet spot).rides = true) : s.wager spot = .ok (s.bet spot) := by
  unfold bet at h ⊢
  cases hi : spot.index? with
  | some i => exact wager_of_index hi
  | none =>
    rw [hi] at h
    cases h

theorem rides_eq (s : Seat κ) (spot : Spot) : s.rides spot = (s.bet spot).rides := by
  unfold rides bet
  cases spot.index? <;> rfl

theorem bet_congr (h : t.wagers = s.wagers) (spot : Spot) : t.bet spot = s.bet spot := by
  unfold bet
  rw [h]

/-- A write shows on its spot and nowhere else. -/
theorem bet_setWager (h : s.setWager spot w = .ok t) (other : Spot) :
    t.bet other = if other = spot then w else s.bet other := by
  split
  · next hc => exact hc ▸ bet_of_wager (wager_setWager h)
  · next hne =>
    have hwager := wager_setWager_of_ne h hne
    unfold wager at hwager
    unfold bet
    cases hi : other.index? with
    | some i =>
      rw [hi] at hwager
      exact Except.ok.inj hwager
    | none => rfl

theorem trackers_setWager (h : s.setWager spot w = .ok t) : t.trackers = s.trackers := by
  obtain ⟨i, -, -, rfl⟩ := setWager_ok h
  rfl

theorem Sound.bet_holds (hs : s.Sound) (spot : Spot) : spot.Holds (s.bet spot) := by
  by_cases hr : (s.bet spot).rides = true
  · exact hs.holds (wager_of_rides hr)
  · unfold bet
    cases hi : spot.index? with
    | some i => exact Spot.ofIndex_of_index? hi ▸ hs i
    | none => exact ⟨fun _ => rfl, fun h => absurd h (by simp)⟩

/-- What rides at a sound seat is on a spot that a roll decides. -/
theorem Sound.mem_order (hs : s.Sound) (hr : (s.bet spot).rides = true) : spot ∈ Spot.order := by
  obtain ⟨i, hi, hspot, -⟩ := wager_ok (wager_of_rides hr)
  obtain ⟨worst, hworst⟩ := (hs.bet_holds spot).reserved hr
  rw [← hspot] at hworst ⊢
  exact Spot.mem_order_of_reserve hworst

/-- Wagers that do not ride hold no stake. -/
def NoIdleStake (s : Seat κ) : Prop :=
  ∀ i : Fin spotCount, (s.wagers.get i).rides = false → (s.wagers.get i).amount = 0

theorem NoIdleStake.bet_idle (hs : s.NoIdleStake) (hr : (s.bet spot).rides = false) :
    (s.bet spot).amount = 0 := by
  unfold bet at hr ⊢
  split
  · next i hi =>
    rw [hi] at hr
    exact hs i hr
  · rfl

/-- What does not ride holds no stake, and the seven is not raced against itself. The walk over the
spots needs no more of a seat than that. -/
structure Orderly (s : Seat κ) : Prop where
  idle : ∀ i : Fin spotCount, (s.wagers.get i).rides = false → (s.wagers.get i).amount = 0
  yes : s.rides (.yes 7) = false
  no : s.rides (.no 7) = false

theorem Orderly.bet_idle (hs : s.Orderly) (hr : (s.bet spot).rides = false) :
    (s.bet spot).amount = 0 := NoIdleStake.bet_idle hs.idle hr

theorem Orderly.mem_order (hs : s.Orderly) (hr : (s.bet spot).rides = true) :
    spot ∈ Spot.order := by
  obtain ⟨i, hi, -, -⟩ := wager_ok (wager_of_rides hr)
  refine Spot.mem_order_iff.mpr ⟨⟨i, hi⟩, ?_, ?_⟩
  all_goals
    rintro rfl
    rw [← rides_eq] at hr
  · exact Bool.false_ne_true (hs.yes.symm.trans hr)
  · exact Bool.false_ne_true (hs.no.symm.trans hr)

theorem Sound.orderly (hs : s.Sound) : s.Orderly := by
  have hrace : ∀ {spot}, spot ∉ Spot.order → s.rides spot = false := by
    intro spot hmem
    rw [rides_eq]
    exact Bool.eq_false_iff.mpr fun hr => hmem (hs.mem_order hr)
  exact ⟨fun i => (hs i).idle, hrace (by decide), hrace (by decide)⟩

theorem bet_blank (owner : κ) (spot : Spot) : (blank owner).bet spot = Wager.blank := by
  unfold bet
  cases spot.index? with
  | some i => exact wagers_blank owner i
  | none => rfl

/-! ## Rulings -/

/-- What a roll means for the wager on a spot; one that does not ride is left alone. -/
def ruling (s : Seat κ) (view : RollView) (spot : Spot) : Verdict :=
  if (s.bet spot).rides then (spot.verdict view).toOption.getD .carry else .carry

/-- What the wager on a spot adds to the tally of a settlement. -/
def share (s : Seat κ) (view : RollView) (spot : Spot) : Tally :=
  (s.ruling view spot).tally spot (s.bet spot).amount

/-- What the verdicts of a settlement look at. -/
def seen (s : Seat κ) (phase : Phase) (roll : Roll) (fieldTriple : Bool) :
    Except Fault RollView := do
  let call := (phase.step roll.sum).2
  let tracked ← s.track call roll.sum
  return { phase, roll, call, fieldTriple, trackers := tracked.trackers }

theorem seen_ok {phase : Phase} {roll : Roll} {fieldTriple : Bool}
    (h : s.seen phase roll fieldTriple = .ok view) :
    view.phase = phase ∧ view.roll = roll ∧ view.call = (phase.step roll.sum).2 ∧
      ∃ u, s.track (phase.step roll.sum).2 roll.sum = .ok u ∧ view.trackers = u.trackers := by
  unfold seen at h
  simp only [bind_eq_ok_iff, pure_eq_ok_iff] at h
  obtain ⟨u, htrack, rfl⟩ := h
  exact ⟨rfl, rfl, rfl, u, htrack, rfl⟩

/-- Once it has its view, a settlement comes to the walk along the spots, the arrivals and the
booking. -/
theorem settleAlong_eq (order : List Spot) (s : Seat κ) (phase : Phase) (roll : Roll)
    (fieldTriple : Bool) : settleAlong order s phase roll fieldTriple = do
      let view ← s.seen phase roll fieldTriple
      let p ← order.foldlM (Progress.judge s view) ⟨{ s with trackers := view.trackers }, {}, []⟩
      let landed ← p.moves.foldlM land p.seat
      return (← landed.restTrackers.book p.tally, p.tally) := by
  unfold settleAlong seen
  dsimp only
  cases htrack : s.track (phase.step roll.sum).2 roll.sum with
  | error f => rfl
  | ok tracked =>
    obtain ⟨trackers, rfl⟩ := track_ok htrack
    rfl

theorem ruling_of_verdict {verdict : Verdict} (hr : (s.bet spot).rides = true)
    (hv : spot.verdict view = .ok verdict) : s.ruling view spot = verdict := by
  unfold ruling
  rw [if_pos hr, hv]
  rfl

theorem ruling_of_not_rides (hr : (s.bet spot).rides = false) : s.ruling view spot = .carry :=
  if_neg (by simp [hr])

theorem share_of_not_rides (hr : (s.bet spot).rides = false) : s.share view spot = 0 := by
  unfold share
  rw [ruling_of_not_rides hr]
  rfl

/-- Where nothing rides, nothing changes. -/
theorem leaves_of_not_rides (hr : (s.bet spot).rides = false) :
    (s.ruling view spot).leaves (s.bet spot) = s.bet spot := by
  rw [ruling_of_not_rides hr]
  exact Wager.carry_of_not_rides hr

/-- A wager that does not just go on rides and has this verdict. -/
theorem verdict_of_ruling {verdict : Verdict} (h : s.ruling view spot = verdict)
    (hne : verdict ≠ .carry) :
    (s.bet spot).rides = true ∧ spot.verdict view = .ok verdict := by
  subst h
  unfold ruling at hne ⊢
  split
  · next hr =>
    rw [if_pos hr] at hne
    refine ⟨hr, ?_⟩
    cases hv : spot.verdict view with
    | ok verdict => rfl
    | error f =>
      rw [hv] at hne
      exact absurd rfl hne
  · next hr =>
    rw [if_neg hr] at hne
    exact absurd rfl hne

theorem travel_of_ruling {n : Nat} (h : s.ruling view spot = .travel n) :
    (s.bet spot).rides = true ∧ spot.verdict view = .ok (.travel n) :=
  verdict_of_ruling h (by simp)

/-! ## The walk over the spots -/

/-- All that judging one spot can be: it is passed over, or its verdict is carried out. -/
theorem judge_ruled {before : Seat κ} {p p' : Progress κ}
    (h : Progress.judge before view p spot = .ok p') :
    (before.bet spot).rides = false ∧ p' = p ∨
      (before.bet spot).rides = true ∧
        ∃ verdict seat, spot.verdict view = .ok verdict ∧
          p.seat.setWager spot (verdict.leaves (p.seat.bet spot)) = .ok seat ∧
          p' = ⟨seat, p.tally + verdict.tally spot (before.bet spot).amount,
            p.moves ++ verdict.moves spot (before.bet spot).amount⟩ := by
  unfold Progress.judge at h
  rw [bind_eq_ok_iff] at h
  obtain ⟨w, hw, h⟩ := h
  obtain rfl : before.bet spot = w := bet_of_wager hw
  split at h
  · next hr =>
    rw [bind_eq_ok_iff] at h
    obtain ⟨verdict, hv, h⟩ := h
    refine .inr ⟨hr, verdict, ?_⟩
    cases verdict with
    | win odds =>
      simp only [bind_eq_ok_iff, pure_eq_ok_iff] at h
      obtain ⟨tally, ht, seat, hset, rfl⟩ := h
      rw [Tally.win_eq_add ht]
      exact ⟨seat, hv, hset, by simp only [Verdict.moves, List.append_nil]⟩
    | lose =>
      simp only [bind_eq_ok_iff, pure_eq_ok_iff] at h
      obtain ⟨tally, ht, seat, hset, rfl⟩ := h
      rw [Tally.lose_eq_add ht]
      exact ⟨seat, hv, hset, by simp only [Verdict.moves, List.append_nil]⟩
    | push =>
      simp only [bind_eq_ok_iff, pure_eq_ok_iff] at h
      obtain ⟨tally, ht, seat, hset, rfl⟩ := h
      rw [Tally.push_eq_add ht]
      exact ⟨seat, hv, hset, by simp only [Verdict.moves, List.append_nil]⟩
    | carry =>
      simp only [bind_eq_ok_iff, pure_eq_ok_iff] at h
      obtain ⟨now, hnow, seat, hset, rfl⟩ := h
      rw [← bet_of_wager hnow] at hset
      refine ⟨seat, hv, hset, ?_⟩
      simp only [Verdict.moves, Verdict.tally, List.append_nil, add_zero]
    | travel n =>
      simp only [bind_eq_ok_iff, pure_eq_ok_iff] at h
      obtain ⟨seat, hset, rfl⟩ := h
      refine ⟨seat, hv, hset, ?_⟩
      simp only [Verdict.moves, Verdict.tally, add_zero]
  · next hr =>
    rw [pure_eq_ok_iff] at h
    exact .inl ⟨by simpa using hr, h.symm⟩

/-- The stake that leaves a spot, with where it goes to. -/
def departures (s : Seat κ) (view : RollView) (spot : Spot) : List (Spot × Nat) :=
  (s.ruling view spot).moves spot (s.bet spot).amount

/-- How far the walk along an order has come with the spots that are left. -/
structure Walked (order : List Spot) (before : Seat κ) (view : RollView) (rest : List Spot)
    (p : Progress κ) : Prop where
  nodup : rest.Nodup
  ahead : ∀ spot ∈ rest, p.seat.bet spot = before.bet spot
  behind : ∀ spot, spot ∉ rest → p.seat.bet spot = (before.ruling view spot).leaves (before.bet spot)
  decided : ∀ spot, spot ∉ rest → (before.bet spot).rides = true →
    spot.verdict view = .ok (before.ruling view spot)
  tally : p.tally + (rest.map (before.share view)).sum = (order.map (before.share view)).sum
  moves : p.moves ++ rest.flatMap (before.departures view)
    = order.flatMap (before.departures view)
  trackers : p.seat.trackers = view.trackers

section Walk

variable {order : List Spot} {before : Seat κ} {rest : List Spot} {p p' : Progress κ}

/-- Before the first spot everything is as it was; what no roll decides does not ride. -/
theorem Walked.begin (hs : before.Orderly) (horder : order.Perm Spot.order) :
    Walked order before view order ⟨{ before with trackers := view.trackers }, {}, []⟩ where
  nodup := horder.nodup_iff.mpr order_nodup
  ahead _ _ := rfl
  behind spot hmem := by
    have hr : (before.bet spot).rides = false := by
      by_contra hc
      exact hmem (horder.mem_iff.mpr (hs.mem_order (by simpa using hc)))
    rw [leaves_of_not_rides hr]
    rfl
  decided spot hmem hr := absurd (horder.mem_iff.mpr (hs.mem_order hr)) hmem
  tally := zero_add _
  moves := rfl
  trackers := rfl

/-- Judging a spot carries out its ruling. -/
theorem Walked.judge (h : Walked order before view (spot :: rest) p)
    (hj : Progress.judge before view p spot = .ok p') : Walked order before view rest p' := by
  obtain ⟨hspot, hnodup⟩ := List.nodup_cons.mp h.nodup
  have hbet : p.seat.bet spot = before.bet spot := h.ahead spot List.mem_cons_self
  have htally := h.tally
  have hmoves := h.moves
  rw [List.map_cons, List.sum_cons, ← add_assoc] at htally
  rw [List.flatMap_cons, ← List.append_assoc] at hmoves
  have hother : ∀ other, other ∉ rest → other ≠ spot → other ∉ spot :: rest := by
    intro other hrest hne hmem
    rcases List.mem_cons.mp hmem with hc | hc
    · exact hne hc
    · exact hrest hc
  rcases judge_ruled hj with ⟨hr, rfl⟩ | ⟨hr, verdict, seat, hv, hset, rfl⟩
  · refine ⟨hnodup, fun other ho => h.ahead other (List.mem_cons_of_mem _ ho), ?_, ?_, ?_, ?_,
      h.trackers⟩
    · intro other hrest
      by_cases hc : other = spot
      · rw [hc, hbet, leaves_of_not_rides hr]
      · exact h.behind other (hother other hrest hc)
    · intro other hrest hor
      by_cases hc : other = spot
      · rw [hc, hr] at hor
        cases hor
      · exact h.decided other (hother other hrest hc) hor
    · rwa [share_of_not_rides hr, add_zero] at htally
    · rw [departures, ruling_of_not_rides hr] at hmoves
      simpa only [Verdict.moves, List.append_nil] using hmoves
  · have hruling : before.ruling view spot = verdict := ruling_of_verdict hr hv
    refine ⟨hnodup, ?_, ?_, ?_, ?_, ?_, (trackers_setWager hset).trans h.trackers⟩
    · intro other ho
      have hne : other ≠ spot := fun hc => hspot (hc ▸ ho)
      rw [bet_setWager hset, if_neg hne]
      exact h.ahead other (List.mem_cons_of_mem _ ho)
    · intro other hrest
      rw [bet_setWager hset]
      split
      · next hc => rw [hc, hbet, hruling]
      · next hne => exact h.behind other (hother other hrest hne)
    · intro other hrest hor
      by_cases hc : other = spot
      · rw [hc, hv, hruling]
      · exact h.decided other (hother other hrest hc) hor
    · rwa [share, hruling] at htally
    · rwa [departures, hruling] at hmoves

end Walk

/-! ## Arrivals -/

/-- Stake that arrives is added to what is on its spot. -/
theorem land_bet {move : Spot × Nat} (h : s.land move = .ok t) :
    ∃ after, (s.bet move.1).add move.2 = .ok after ∧
      ∀ other, t.bet other = if other = move.1 then after.carry else s.bet other := by
  unfold land at h
  simp only [bind_eq_ok_iff] at h
  obtain ⟨now, hnow, after, hafter, hset⟩ := h
  rw [bet_of_wager hnow]
  exact ⟨after, hafter, bet_setWager hset⟩

/-- Stake that arrives on spots of its own, where there was none, is what is there then. -/
theorem foldlM_land_bet {moves : List (Spot × Nat)} (h : moves.foldlM land s = .ok t)
    (hnodup : (moves.map Prod.fst).Nodup)
    (hfree : ∀ move ∈ moves, (s.bet move.1).rides = false ∧ (s.bet move.1).amount = 0 ∧ 0 < move.2) :
    (∀ move ∈ moves, t.bet move.1 = .arrived move.2) ∧
      ∀ spot, spot ∉ moves.map Prod.fst → t.bet spot = s.bet spot := by
  induction moves generalizing s with
  | nil =>
    rw [List.foldlM_nil, pure_eq_ok_iff] at h
    subst h
    exact ⟨fun move hm => absurd hm List.not_mem_nil, fun spot _ => rfl⟩
  | cons first moves ih =>
    rw [List.foldlM_cons, bind_eq_ok_iff] at h
    obtain ⟨u, hland, h⟩ := h
    obtain ⟨hfirst, hrest⟩ := List.nodup_cons.mp hnodup
    obtain ⟨hr, ha, hpos⟩ := hfree first List.mem_cons_self
    obtain ⟨after, hafter, hbet⟩ := land_bet hland
    have harrived : after.carry = .arrived first.2 := Wager.carry_add hr ha hpos hafter
    have hne : ∀ move ∈ moves, move.1 ≠ first.1 :=
      fun move hm hc => hfirst (hc ▸ List.mem_map_of_mem hm)
    obtain ⟨hmoved, hstay⟩ := ih h hrest fun move hm => by
      rw [hbet, if_neg (hne move hm)]
      exact hfree move (List.mem_cons_of_mem _ hm)
    refine ⟨fun move hm => ?_, fun spot hspot => ?_⟩
    · rcases List.mem_cons.mp hm with rfl | hm
      · rw [hstay _ hfirst, hbet, if_pos rfl, harrived]
      · exact hmoved move hm
    · rw [List.map_cons, List.mem_cons, not_or] at hspot
      obtain ⟨hc, hmem⟩ := hspot
      rw [hstay spot hmem, hbet, if_neg hc]

theorem mem_departures {move : Spot × Nat} :
    move ∈ s.departures view spot ↔
      ∃ n, s.ruling view spot = .travel n ∧ move = (spot.landing n, (s.bet spot).amount) := by
  unfold departures
  cases s.ruling view spot <;> simp [Verdict.moves]

/-- No two spots send stake to one. -/
theorem departures_nodup {spots : List Spot} (hspots : spots.Nodup) :
    ((spots.flatMap (s.departures view)).map Prod.fst).Nodup := by
  rw [List.map_flatMap, List.nodup_flatMap]
  constructor
  · intro spot _
    unfold departures
    cases s.ruling view spot <;> simp [Verdict.moves]
  · refine hspots.imp fun {a b} hne => ?_
    intro target ha hb
    obtain ⟨m, hm, rfl⟩ := List.mem_map.mp ha
    obtain ⟨m', hm', heq⟩ := List.mem_map.mp hb
    obtain ⟨n, hn, rfl⟩ := mem_departures.mp hm
    obtain ⟨n', hn', rfl⟩ := mem_departures.mp hm'
    have hboxa := Spot.verdict_travel (travel_of_ruling hn).2
    have hboxb := Spot.verdict_travel (travel_of_ruling hn').2
    rcases hboxa with rfl | rfl <;> rcases hboxb with rfl | rfl
    · exact hne rfl
    · cases heq
    · cases heq
    · exact hne rfl

/-! ## Whole settlements -/

/-- What a settlement makes of a seat: every wager is ruled on by itself, and those that travel
arrive on free numbers. -/
structure Ruled (s : Seat κ) (view : RollView) (t : Seat κ) (tally : Tally) : Prop where
  decided : ∀ spot, (s.bet spot).rides = true → spot.verdict view = .ok (s.ruling view spot)
  tally : tally = (Spot.order.map (s.share view)).sum
  stays : ∀ spot, (∀ box n, s.ruling view box = .travel n → box.landing n ≠ spot) →
    t.bet spot = (s.ruling view spot).leaves (s.bet spot)
  arrives : ∀ box n, s.ruling view box = .travel n →
    t.bet (box.landing n) = .arrived (s.bet box).amount
  trackers : t.trackers = (restTrackers { t with trackers := view.trackers }).trackers

section Whole

variable {order : List Spot} {phase : Phase} {roll : Roll} {fieldTriple : Bool} {tally : Tally}

/-- What rides on after a roll, on a spot where nothing arrived, was left open by it. -/
theorem Ruled.left_open (h : s.Ruled view t tally)
    (hbox : ∀ box n, s.ruling view box = .travel n → box.landing n ≠ spot)
    (hr : (t.bet spot).rides = true) :
    (s.bet spot).rides = true ∧ spot.verdict view = .ok .carry ∧
      t.bet spot = (s.bet spot).carry := by
  have hbet := h.stays spot hbox
  have hrides : (s.bet spot).rides = true := by
    by_contra hc
    rw [leaves_of_not_rides (by simpa using hc)] at hbet
    exact hc (hbet ▸ hr)
  have hverdict := h.decided spot hrides
  cases hruling : s.ruling view spot with
  | carry =>
    rw [hruling] at hbet hverdict
    exact ⟨hrides, hverdict, hbet⟩
  | _ =>
    rw [hruling] at hbet
    rw [hbet] at hr
    cases hr

/-- The numbers to which wagers travel are free then, or freed by the same roll. -/
theorem Orderly.free (hs : s.Orderly) {n : Nat} (hn : s.ruling view spot = .travel n) :
    ((s.ruling view (spot.landing n)).leaves (s.bet (spot.landing n))).rides = false ∧
      ((s.ruling view (spot.landing n)).leaves (s.bet (spot.landing n))).amount = 0 := by
  by_cases hr : (s.bet (spot.landing n)).rides = true
  · rcases Spot.verdict_landing (travel_of_ruling hn).2 with hv | hv
    · rw [ruling_of_verdict hr hv]
      exact ⟨rfl, rfl⟩
    · rw [ruling_of_verdict hr hv]
      exact ⟨rfl, rfl⟩
  · have hr : (s.bet (spot.landing n)).rides = false := by simpa using hr
    rw [leaves_of_not_rides hr]
    exact ⟨hr, hs.bet_idle hr⟩

theorem trackers_foldlM_land {moves : List (Spot × Nat)} (h : moves.foldlM land s = .ok t) :
    t.trackers = s.trackers := by
  refine foldlM_induction (fun _ u => u.trackers = s.trackers) (fun move _ u u' hu hland => ?_)
    rfl h
  unfold land at hland
  simp only [bind_eq_ok_iff] at hland
  obtain ⟨-, -, after, -, hset⟩ := hland
  exact (trackers_setWager hset).trans hu

section End

variable {p : Progress κ} (h : Walked order s view [] p) (horder : order.Perm Spot.order)
include h horder

theorem Walked.tally_eq : p.tally = (Spot.order.map (s.share view)).sum := by
  have htally := h.tally
  rwa [List.map_nil, List.sum_nil, add_zero, (horder.map _).sum_eq] at htally

theorem Walked.moves_nodup : (p.moves.map Prod.fst).Nodup := by
  have hmoves := h.moves
  rw [List.flatMap_nil, List.append_nil] at hmoves
  rw [hmoves]
  exact departures_nodup (horder.nodup_iff.mpr order_nodup)

/-- On their way are the wagers that travel. -/
theorem Walked.mem_moves (hs : s.Orderly) {move : Spot × Nat} : move ∈ p.moves ↔
    ∃ box n, s.ruling view box = .travel n ∧ move = (box.landing n, (s.bet box).amount) := by
  have hmoves := h.moves
  rw [List.flatMap_nil, List.append_nil] at hmoves
  rw [hmoves, List.mem_flatMap]
  constructor
  · rintro ⟨box, -, hbox⟩
    exact ⟨box, mem_departures.mp hbox⟩
  · rintro ⟨box, n, hn, heq⟩
    have hbox : box ∈ order := horder.mem_iff.mpr (hs.mem_order (travel_of_ruling hn).1)
    exact ⟨box, hbox, mem_departures.mpr ⟨n, hn, heq⟩⟩

end End

/-- The walk, the arrivals and the booking together. -/
theorem Walked.finish {p : Progress κ} {landed : Seat κ} (h : Walked order s view [] p)
    (hs : s.Orderly) (horder : order.Perm Spot.order)
    (hland : p.moves.foldlM land p.seat = .ok landed)
    (hbook : landed.restTrackers.book p.tally = .ok t) : Ruled s view t p.tally := by
  have hwagers : t.wagers = landed.wagers := (book_ok hbook).1
  have hbet : ∀ spot, t.bet spot = landed.bet spot := bet_congr hwagers
  obtain ⟨harrived, hstayed⟩ := foldlM_land_bet hland (h.moves_nodup horder) fun move hm => by
    obtain ⟨box, n, hn, rfl⟩ := (h.mem_moves horder hs).mp hm
    rw [h.behind _ List.not_mem_nil]
    obtain ⟨hr, ha⟩ := hs.free hn
    exact ⟨hr, ha, Wager.pos_of_rides (travel_of_ruling hn).1⟩
  refine ⟨fun spot => h.decided spot List.not_mem_nil, h.tally_eq horder, ?_, ?_, ?_⟩
  · intro spot hspot
    rw [hbet, hstayed, h.behind spot List.not_mem_nil]
    intro hc
    obtain ⟨move, hm, rfl⟩ := List.mem_map.mp hc
    obtain ⟨box, n, hn, rfl⟩ := (h.mem_moves horder hs).mp hm
    exact hspot box n hn rfl
  · intro box n hn
    rw [hbet]
    exact harrived _ ((h.mem_moves horder hs).mpr ⟨box, n, hn, rfl⟩)
  · have htrackers : landed.trackers = view.trackers :=
      (trackers_foldlM_land hland).trans h.trackers
    unfold book at hbook
    simp only [bind_eq_ok_iff, pure_eq_ok_iff] at hbook
    obtain ⟨-, -, -, -, -, -, -, -, rfl⟩ := hbook
    show landed.restTrackers.trackers = _
    unfold restTrackers rides
    rw [htrackers]

/-- A settlement that was accepted ruled on every wager by what it saw, whatever the order in which
it went through the spots. -/
theorem settleAlong_ruled (hs : s.Orderly) (horder : order.Perm Spot.order)
    (h : settleAlong order s phase roll fieldTriple = .ok (t, tally)) :
    ∃ view, s.seen phase roll fieldTriple = .ok view ∧ s.Ruled view t tally := by
  rw [settleAlong_eq] at h
  simp only [bind_eq_ok_iff, pure_eq_ok_iff] at h
  obtain ⟨view, hseen, p, hp, landed, hland, u, hbook, heq⟩ := h
  cases heq
  have hend : Walked order s view [] p :=
    foldlM_induction (Walked order s view) (fun spot rest p p' hinv => hinv.judge)
      (Walked.begin hs horder) hp
  exact ⟨view, hseen, hend.finish hs horder hland hbook⟩

theorem settle_ruled (hs : s.Sound) (h : s.settle phase roll fieldTriple = .ok (t, tally)) :
    ∃ view, s.seen phase roll fieldTriple = .ok view ∧ s.Ruled view t tally :=
  settleAlong_ruled hs.orderly (.refl _) h

end Whole

end Seat

end DiceHouse
