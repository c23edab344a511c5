import DiceHouse.Proofs.Seat.Fates
import DiceHouse.Proofs.Seat.Tidy
import DiceHouse.Proofs.Seat.Totals

/-!
# What a forfeiture takes

A forfeiture goes along the same order of the spots as a settlement, while the stake at risk is
added up over all places that a seat has. The order leaves out two of these, the seven raced against
itself. Nothing ever rides there: whoever asks for a wager there is refused, as there are no odds to
reserve for it, and no wager travels to it. So the two walks see the same wagers, and what is lost
is all that is at risk.

The tally is the sum of what each wager gives, `Seat.gift`; its parts are read off from there.
-/

namespace DiceHouse.Seat

variable {κ : Type} {owner : κ} {s t : Seat κ} {spot : Spot} {tally : Tally}

/-! ## Seats that come about -/

/-- A seat that came from a blank one by placing wagers, settling and forfeiting, in any order, in
whatever phase of the line and against whatever rolls. What is refused leaves no trace. -/
inductive Reached (owner : κ) : Seat κ → Prop
  | blank : Reached owner (blank owner)
  | place {s : Seat κ} {spot : Spot} {amount : Nat} {phase : Phase} {placed : Seat κ × Nat}
    (h : Reached owner s) (hplace : s.place spot amount phase = .ok placed) :
    Reached owner placed.1
  | settle {s : Seat κ} {phase : Phase} {roll : Roll} {fieldTriple : Bool}
    {settled : Seat κ × Tally} (h : Reached owner s)
    (hsettle : s.settle phase roll fieldTriple = .ok settled) : Reached owner settled.1
  | forfeit {s : Seat κ} {cleared : Seat κ × Tally} (h : Reached owner s)
    (hforfeit : s.forfeit = .ok cleared) : Reached owner cleared.1

theorem Reached.sound (h : Reached owner s) : s.Sound := by
  induction h with
  | blank => exact sound_blank owner
  | place _ hplace ih => exact (place_ok ih hplace).sound
  | settle _ hsettle ih => exact (settle_ok ih hsettle).sound
  | forfeit _ hforfeit ih => exact (forfeit_ok ih hforfeit).sound

/-! ## What each wager gives -/

/-- What giving up the wager on a spot adds to the tally. -/
def gift (s : Seat κ) (spot : Spot) : Tally :=
  if (s.bet spot).rides then Verdict.lose.tally spot (s.bet spot).amount else 0

theorem gift_of_not_rides (h : (s.bet spot).rides = false) : s.gift spot = 0 :=
  if_neg (by simp [h])

/-- A part of the tally in which only wagers that ride count. -/
theorem part_gift (part : Tally → Nat) (hzero : part 0 = 0) (s : Seat κ) (spot : Spot) :
    part (s.gift spot) =
      if (s.bet spot).rides then part (Verdict.lose.tally spot (s.bet spot).amount) else 0 := by
  unfold gift
  split
  · rfl
  · exact hzero

/-- Going along an order adds up what the wagers on it give. -/
theorem tally_foldlM_surrender {order : List Spot} {start q : Seat κ × Tally}
    (h : order.foldlM (surrender s) start = .ok q) :
    q.2 = start.2 + (order.map s.gift).sum := by
  have hend : q.2 + (([] : List Spot).map s.gift).sum = start.2 + (order.map s.gift).sum := by
    refine foldlM_induction
      (fun rest q => q.2 + (rest.map s.gift).sum = start.2 + (order.map s.gift).sum) ?_ rfl h
    intro spot rest q q' hinv hstep
    rw [List.map_cons, List.sum_cons, ← add_assoc] at hinv
    obtain ⟨w, hw, hcases⟩ := surrender_ok hstep
    obtain rfl : s.bet spot = w := bet_of_wager hw
    rcases hcases with ⟨hr, rfl⟩ | ⟨hr, tally, seat, hlose, -, rfl⟩
    · rwa [gift_of_not_rides hr, add_zero] at hinv
    · rw [gift, if_pos hr] at hinv
      rw [Tally.lose_eq_add hlose]
      exact hinv
  rwa [List.map_nil, List.sum_nil, add_zero] at hend

theorem tally_forfeit (h : s.forfeit = .ok (t, tally)) : tally = (Spot.order.map s.gift).sum := by
  unfold forfeit at h
  simp only [bind_eq_ok_iff, pure_eq_ok_iff] at h
  obtain ⟨q, hq, u, -, heq⟩ := h
  cases heq
  have hwalk := tally_foldlM_surrender hq
  exact hwalk.trans (zero_add _)

/-- The order leaves out nothing that rides, so a part of the tally is that part of what the wagers
on all places give. -/
theorem part_forfeit (hs : s.Sound) (h : s.forfeit = .ok (t, tally)) (part : Tally → Nat)
    (hzero : part 0 = 0) (hadd : ∀ a b, part (a + b) = part a + part b) :
    part tally = ∑ i : Fin spotCount, if (s.wagers.get i).rides then
      part (Verdict.lose.tally (Spot.ofIndex i) (s.wagers.get i).amount) else 0 := by
  have hyes : (s.bet (.yes 7)).rides = false := by
    rw [← rides_eq, hs.orderly.yes]
  have hno : (s.bet (.no 7)).rides = false := by
    rw [← rides_eq, hs.orderly.no]
  rw [tally_forfeit h, Spot.sum_order s.gift (gift_of_not_rides hyes) (gift_of_not_rides hno),
    Tally.sum_apply part hzero hadd]
  refine Finset.sum_congr rfl fun i _ => ?_
  rw [part_gift part hzero, bet_ofIndex]

/-! ## The whole forfeiture -/

/-- Everything that a forfeiture does to a seat, and what its tally says. -/
structure Forfeited (s : Seat κ) (t : Seat κ) (tally : Tally) : Prop where
  idle : t.hasRiding = false
  trackers : t.trackers = {}
  /-- All that is at risk is lost. -/
  lost : s.atRisk = .ok tally.lost
  /-- What was reserved for the wagers that ride is released. -/
  released : ∃ reserved : Fin spotCount → Nat,
    (∀ i, (s.wagers.get i).rides = true →
      (Spot.ofIndex i).reserve (s.wagers.get i).amount = .ok (reserved i)) ∧
    tally.released = ∑ i with (s.wagers.get i).rides = true, reserved i
  /-- Nobody is paid. -/
  unpaid : tally.credited = 0 ∧ tally.profit = 0 ∧ tally.pushed = 0
  resolved : tally.resolved =
    (Finset.univ.filter fun i : Fin spotCount => (s.wagers.get i).rides = true).card
  totalLost : t.totalLost = s.totalLost + tally.lost
  kept : t.owner = s.owner ∧ t.epoch = s.epoch ∧ t.pending = s.pending ∧
    t.totalWagered = s.totalWagered ∧ t.totalWon = s.totalWon ∧ t.totalPushed = s.totalPushed
  /-- The wagers that ride are cleared, and no others are touched. -/
  wagers : ∀ i : Fin spotCount, t.wagers.get i =
    if (s.wagers.get i).rides then .cleared .lost else s.wagers.get i

/-- What a forfeiture loses is an amount, for it is booked on the seat. -/
theorem lost_lt_of_forfeit (h : s.forfeit = .ok (t, tally)) : tally.lost < Amount.limit := by
  unfold forfeit at h
  simp only [bind_eq_ok_iff, pure_eq_ok_iff] at h
  obtain ⟨q, -, u, hbook, heq⟩ := h
  obtain ⟨rfl, rfl⟩ := Prod.mk.inj heq
  obtain ⟨-, -, hlost, -⟩ := book_eq_ok_iff.mp ⟨_, hbook⟩
  exact (Nat.le_add_left _ _).trans_lt hlost

section Parts

variable (hs : s.Sound) (h : s.forfeit = .ok (t, tally))
include hs h

theorem lost_forfeit : tally.lost = s.stakes := part_forfeit hs h Tally.lost rfl fun _ _ => rfl

theorem released_forfeit : tally.released =
    ∑ i with (s.wagers.get i).rides = true,
      (Spot.ofIndex i).tied (s.wagers.get i).amount := by
  rw [Finset.sum_filter]
  exact part_forfeit hs h Tally.released rfl fun _ _ => rfl

theorem resolved_forfeit : tally.resolved =
    (Finset.univ.filter fun i : Fin spotCount => (s.wagers.get i).rides = true).card := by
  rw [Finset.card_filter]
  exact part_forfeit hs h Tally.resolved rfl fun _ _ => rfl

/-- A part of the tally to which losing adds nothing is nothing. -/
theorem part_forfeit_eq_zero (part : Tally → Nat) (hzero : part 0 = 0)
    (hadd : ∀ a b, part (a + b) = part a + part b)
    (hlose : ∀ spot amount, part (Verdict.lose.tally spot amount) = 0) : part tally = 0 := by
  rw [part_forfeit hs h part hzero hadd]
  refine Finset.sum_eq_zero fun i _ => ?_
  rw [hlose, ite_self]

/-- A forfeiture of a sound seat. -/
theorem forfeited_of_sound : s.Forfeited t tally := by
  obtain ⟨hbet, htrackers⟩ := forfeit_leaves hs h
  obtain ⟨hbooked, -⟩ := forfeit_credited h
  have hcredited : tally.credited = 0 :=
    part_forfeit_eq_zero hs h Tally.credited rfl (fun _ _ => rfl) fun _ _ => rfl
  have hprofit : tally.profit = 0 :=
    part_forfeit_eq_zero hs h Tally.profit rfl (fun _ _ => rfl) fun _ _ => rfl
  have hpushed : tally.pushed = 0 :=
    part_forfeit_eq_zero hs h Tally.pushed rfl (fun _ _ => rfl) fun _ _ => rfl
  constructor
  case idle => exact forfeit_clears hs h
  case trackers => exact htrackers
  case lost =>
    have hlost := lost_forfeit hs h
    rw [hlost]
    exact atRisk_of_lt (hlost ▸ lost_lt_of_forfeit h)
  case released =>
    refine ⟨fun i => (Spot.ofIndex i).tied (s.wagers.get i).amount, ?_, released_forfeit hs h⟩
    intro i hr
    obtain ⟨worst, hworst⟩ := (hs i).reserved hr
    show _ = Except.ok ((Spot.ofIndex i).tied (s.wagers.get i).amount)
    rw [hworst, Spot.tied_of_reserve hworst]
  case unpaid => exact ⟨hcredited, hprofit, hpushed⟩
  case resolved => exact resolved_forfeit hs h
  case totalLost => exact hbooked.lost
  case kept =>
    have hpending := hbooked.pending
    have hwon := hbooked.won
    have hpush := hbooked.pushed
    dsimp only at hpending hwon hpush
    rw [hcredited] at hpending
    rw [hprofit] at hwon
    rw [hpushed] at hpush
    exact ⟨hbooked.owner, hbooked.epoch, hpending, hbooked.wagered, hwon, hpush⟩
  case wagers =>
    intro i
    have hleft := hbet (Spot.ofIndex i)
    rwa [bet_ofIndex, bet_ofIndex] at hleft

end Parts

/-- A forfeiture clears the whole seat and nothing more. Of any seat that came from a blank one by
placing, settling and forfeiting, a forfeiture that is granted leaves nothing riding and no tracker.
All stake at risk is lost, the reservations of all wagers that ride are released, and these are the
wagers that are counted; nobody is paid anything. The loss is added to what the seat ever lost, and
all else of the seat is as it was, the wagers that do not ride among it. -/
theorem forfeit_takes_all (h : Reached owner s) (hforfeit : s.forfeit = .ok (t, tally)) :
    s.Forfeited t tally :=
  forfeited_of_sound h.sound hforfeit

/-- Two bonus bets and a come bet that travelled, given up at a seat that was given up before. -/
theorem forfeit_takes_all_midway :
    ∃ s t : Seat Unit, ∃ tally, Reached () s ∧ s.forfeit = .ok (t, tally) ∧ s.Forfeited t tally ∧
      s.trackers.smallHits = 12 ∧ tally = { lost := 120, released := 10390, resolved := 3 } := by
  have heval : (((blank ()).place .passLine 10 .comeOut >>= fun a =>
      a.1.forfeit >>= fun b =>
      b.1.place .small 10 .comeOut >>= fun c =>
      c.1.place .fire 10 .comeOut >>= fun d =>
      d.1.settle .comeOut (.ofSquare 2) false >>= fun e =>
      e.1.place .comeBox 100 (.point 4) >>= fun f =>
      f.1.place (.next 5) 7 (.point 4) >>= fun g =>
      g.1.settle (.point 4) (.ofSquare 3) true >>= fun s =>
      (fun q => (s.1.trackers.smallHits, q.2)) <$> s.1.forfeit).toOption)
      = some (12, { lost := 120, released := 10390, resolved := 3 }) := by
    decide +kernel
  have hrun := eq_ok_of_toOption heval
  simp only [bind_eq_ok_iff, map_eq_ok_iff] at hrun
  obtain ⟨a, ha, b, hb, c, hc, d, hd, e, he, f, hf, g, hg, s, hs, ⟨t, tally⟩, hforfeit, heq⟩ := hrun
  obtain ⟨hhits, rfl⟩ := Prod.mk.inj heq
  have hfirst : Reached () b.1 := .forfeit (.place .blank ha) hb
  have hbets : Reached () d.1 := .place (.place hfirst hc) hd
  have hreached : Reached () s.1 := .settle (.place (.place (.settle hbets he) hf) hg) hs
  exact ⟨s.1, t, _, hreached, hforfeit, forfeit_takes_all hreached hforfeit, hhits, rfl⟩

end DiceHouse.Seat
