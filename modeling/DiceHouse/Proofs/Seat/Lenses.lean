import DiceHouse.Proofs.Seat.Felt

/-!
# Spots as lenses

A spot that the layout has is a lens on a seat: it reads one wager, it writes that one, and nothing
else of the seat is touched. Two spots never have the same wager, so what is done on one does not
show on another. A spot with a number that its class does not have is refused, read or written.

The spots that a roll decides, and those to which it can send a wager from a come box, have all
wagers of a seat between them, each of them once, but two: the seven raced against itself has a
place in a record, and no spot of the order leads there.
-/

namespace DiceHouse

namespace Dice

variable {n : Nat}

/-- A number has a place in a class if it is of the class. -/
theorem isSome_iff_mem {k : Nat} {place? : Nat → Option (Fin k)} {numbers : Vector Nat k}
    (hplace : ∀ j, place? n = some j ↔ numbers.get j = n) : (place? n).isSome ↔ n ∈ numbers := by
  rw [Option.isSome_iff_exists, Vector.mem_iff_getElem]
  constructor
  · rintro ⟨j, hj⟩
    exact ⟨j, j.isLt, (hplace j).mp hj⟩
  · rintro ⟨j, hj, h⟩
    exact ⟨⟨j, hj⟩, (hplace ⟨j, hj⟩).mpr h⟩

theorem pointIndex?_isSome_iff : (pointIndex? n).isSome ↔ n ∈ pointNumbers :=
  isSome_iff_mem fun _ => pointIndex?_eq_some_iff

theorem hardwayIndex?_isSome_iff : (hardwayIndex? n).isSome ↔ n ∈ hardwayNumbers :=
  isSome_iff_mem fun _ => hardwayIndex?_eq_some_iff

theorem sumIndex?_isSome_iff : (sumIndex? n).isSome ↔ n ∈ sums := by
  have hsums : ∀ j : Fin 11, sums.get j = j + 2 := by decide
  refine isSome_iff_mem fun j => ?_
  rw [sumIndex?_eq_some_iff, hsums, eq_comm]

end Dice

namespace Spot

variable {spot : Spot}

/-! ## Spots that there are -/

/-- The number of the spot, if it is on one, is of the class that the spot is for. -/
def OnLayout : Spot → Prop
  | come n | comeOdds n | dontCome n | dontComeOdds n | place n => n ∈ Dice.pointNumbers
  | hardway n => n ∈ Dice.hardwayNumbers
  | yes n | no n | next n => n ∈ Dice.sums
  | _ => True

theorem onLayout_iff_isSome : spot.OnLayout ↔ spot.index?.isSome := by
  cases spot
  case come | comeOdds | dontCome | dontComeOdds | place =>
    simp only [index?, block, Option.isSome_map, Dice.pointIndex?_isSome_iff]
    rfl
  case hardway =>
    simp only [index?, block, Option.isSome_map, Dice.hardwayIndex?_isSome_iff]
    rfl
  case yes | no | next =>
    simp only [index?, block, Option.isSome_map, Dice.sumIndex?_isSome_iff]
    rfl
  all_goals exact iff_of_true trivial rfl

instance : DecidablePred OnLayout := fun _ => decidable_of_iff _ onLayout_iff_isSome.symm

theorem OnLayout.exists_index (h : spot.OnLayout) : ∃ i, spot.index? = some i :=
  Option.isSome_iff_exists.mp (onLayout_iff_isSome.mp h)

theorem index?_of_not_onLayout (h : ¬ spot.OnLayout) : spot.index? = none :=
  Option.not_isSome_iff_eq_none.mp fun hc => h (onLayout_iff_isSome.mpr hc)

/-! ## Spots to which wagers travel -/

/-- A roll of the dice, called as the line calls it, can send a wager from its box to the spot. -/
def IsLanding (spot : Spot) : Prop :=
  ∃ (box : Spot) (view : RollView) (square : Square) (n : Nat),
    view.roll = .ofSquare square ∧ view.call = (view.phase.step view.sum).2 ∧
      box.verdict view = .ok (.travel n) ∧ box.landing n = spot

/-- A roll on the come-out, where no bonus bet has seen one. -/
def comeOutView (square : Square) : RollView where
  phase := .comeOut
  roll := .ofSquare square
  call := (Phase.comeOut.step (Roll.ofSquare square).sum).2
  fieldTriple := false
  trackers := {}

/-- Wagers travel to each number that can be the point, and to no other. -/
theorem isLanding_iff :
    spot.IsLanding ↔ ∃ n ∈ Dice.pointNumbers, spot = come n ∨ spot = dontCome n := by
  constructor
  · rintro ⟨box, view, square, n, hroll, -, hverdict, rfl⟩
    have hsum : 2 ≤ view.sum ∧ view.sum ≤ 12 := by
      unfold RollView.sum
      rw [hroll]
      exact Roll.sum_ofSquare_range square
    have hpoint := Dice.pointIndex?_isSome_iff.mp (point_of_travel hsum.1 hsum.2 hverdict)
    refine ⟨n, hpoint, ?_⟩
    rcases verdict_travel hverdict with rfl | rfl
    · exact .inl rfl
    · exact .inr rfl
  · rintro ⟨n, hn, hspot⟩
    have hrolls : ∀ j : Fin 6, ∃ square : Square,
        comeBox.verdict (comeOutView square) = .ok (.travel (Dice.pointNumbers.get j)) ∧
          dontComeBox.verdict (comeOutView square) = .ok (.travel (Dice.pointNumbers.get j)) := by
      decide
    obtain ⟨j, hj, rfl⟩ := Vector.mem_iff_getElem.mp hn
    obtain ⟨square, hcome, hdontCome⟩ := hrolls ⟨j, hj⟩
    rcases hspot with rfl | rfl
    · exact ⟨comeBox, comeOutView square, square, _, rfl, rfl, hcome, rfl⟩
    · exact ⟨dontComeBox, comeOutView square, square, _, rfl, rfl, hdontCome, rfl⟩

theorem IsLanding.mem_order (h : spot.IsLanding) : spot ∈ order := by
  obtain ⟨n, hn, hspot⟩ := isLanding_iff.mp h
  have hlayout : spot.OnLayout := by
    rcases hspot with rfl | rfl
    all_goals exact hn
  refine mem_order_iff.mpr ⟨hlayout.exists_index, ?_, ?_⟩
  all_goals
    rcases hspot with rfl | rfl
    all_goals exact Spot.noConfusion

end Spot

namespace Seat

variable {κ : Type} {s t : Seat κ} {spot : Spot} {v w : Wager} {i : Fin spotCount}

/-! ## One spot -/

/-- Writing back what was read changes nothing. -/
theorem setWager_wager (h : s.wager spot = .ok w) : s.setWager spot w = .ok s := by
  obtain ⟨i, hi, -, rfl⟩ := wager_ok h
  rw [setWager_of_index hi]
  have hset : s.wagers.set i (s.wagers.get i) i.isLt = s.wagers := Vector.set_getElem_self i.isLt
  rw [hset]

/-- Of two writes on one spot the first leaves no trace. -/
theorem setWager_setWager (h : s.setWager spot v = .ok t) :
    t.setWager spot w = s.setWager spot w := by
  obtain ⟨i, hi, -, rfl⟩ := setWager_ok h
  rw [setWager_of_index hi, setWager_of_index hi, Vector.set_set]

/-- The spot has the wager with this number: it reads it, and it writes it and nothing else. -/
structure Addresses (s : Seat κ) (spot : Spot) (i : Fin spotCount) : Prop where
  reads : s.wager spot = .ok (s.wagers.get i)
  writes : ∀ w, s.setWager spot w = .ok { s with wagers := s.wagers.set i w i.isLt }

theorem addresses_of_index (h : spot.index? = some i) : s.Addresses spot i :=
  ⟨wager_of_index h, fun _ => setWager_of_index h⟩

/-- The wager that a spot has tells the spot, at any seat. -/
theorem addresses_iff : s.Addresses spot i ↔ Spot.ofIndex i = spot := by
  constructor
  · intro h
    -- a write shows where it is done, if it is not of the wager that is there already
    obtain ⟨w, hw⟩ : ∃ w, w ≠ s.wagers.get i := by
      refine ⟨{ s.wagers.get i with amount := (s.wagers.get i).amount + 1 }, fun hc => ?_⟩
      exact Nat.succ_ne_self _ (congrArg Wager.amount hc)
    obtain ⟨j, -, hspot, heq⟩ := setWager_ok (h.writes w)
    have hget : (s.wagers.set i w i.isLt).get i = (s.wagers.set j w j.isLt).get i :=
      congrArg (fun t : Seat κ => t.wagers.get i) heq
    rw [get_set, if_pos rfl, get_set] at hget
    by_cases hij : i = j
    · exact hij ▸ hspot
    · rw [if_neg hij] at hget
      exact absurd hget hw
  · rintro rfl
    exact addresses_of_index (Spot.index?_ofIndex i)

/-- Reading and writing on a spot, apart from all others. -/
structure Lens (s : Seat κ) (spot : Spot) : Prop where
  /-- One wager is read and written, whatever is written. -/
  address : ∃ i, s.Addresses spot i
  /-- What was written is read. -/
  read_write : ∀ {w t}, s.setWager spot w = .ok t → t.wager spot = .ok w
  /-- Writing back what was read changes nothing. -/
  write_read : ∀ {w}, s.wager spot = .ok w → s.setWager spot w = .ok s
  /-- Of two writes the first leaves no trace. -/
  write_write : ∀ {v w t}, s.setWager spot v = .ok t → t.setWager spot w = s.setWager spot w
  /-- The wager of every other spot stays. -/
  others : ∀ {w t}, s.setWager spot w = .ok t → ∀ other, other ≠ spot →
    t.wager other = s.wager other
  /-- So does all of the seat that is no wager. -/
  rest : ∀ {w t}, s.setWager spot w = .ok t → t = { s with wagers := t.wagers }

theorem lens_of_onLayout (s : Seat κ) (h : spot.OnLayout) : s.Lens spot := by
  constructor
  case address =>
    obtain ⟨i, hi⟩ := h.exists_index
    exact ⟨i, addresses_of_index hi⟩
  case read_write => exact wager_setWager
  case write_read => exact setWager_wager
  case write_write => exact setWager_setWager
  case others => exact fun hset _ hne => wager_setWager_of_ne hset hne
  case rest =>
    intro w t hset
    obtain ⟨i, -, -, rfl⟩ := setWager_ok hset
    rfl

/-- A number that is not of the class is refused. -/
theorem refused_of_not_onLayout (s : Seat κ) (h : ¬ spot.OnLayout) :
    s.wager spot = .error .invalidPoint ∧ ∀ w, s.setWager spot w = .error .invalidPoint := by
  have hnone := Spot.index?_of_not_onLayout h
  unfold wager setWager
  rw [hnone]
  exact ⟨rfl, fun _ => rfl⟩

/-! ## All spots -/

/-- The spots that a roll decides have all wagers of a seat between them, but two. -/
structure Covered (s : Seat κ) : Prop where
  /-- Wagers travel to the numbers that can be the point. -/
  landings : ∀ spot : Spot, spot.IsLanding ↔
    ∃ n ∈ Dice.pointNumbers, spot = .come n ∨ spot = .dontCome n
  /-- The spots of the order and those to which wagers travel have every wager but those of the
  seven raced against itself. -/
  every : ∀ i, (∃ spot : Spot, (spot ∈ Spot.order ∨ spot.IsLanding) ∧ s.Addresses spot i) ↔
    ¬ s.Addresses (.yes 7) i ∧ ¬ s.Addresses (.no 7) i
  /-- Each is that of one place in the order. -/
  once : ∀ i, ¬ s.Addresses (.yes 7) i → ¬ s.Addresses (.no 7) i →
    ∃! k : Fin Spot.order.length, s.Addresses (Spot.order.get k) i
  /-- So the order reads what the names list, once each, beside those two. -/
  listed : ∃ yes no rest, s.wager (.yes 7) = .ok yes ∧ s.wager (.no 7) = .ok no ∧
    Spot.order.mapM s.wager = .ok rest ∧ s.felt.toList.Perm (yes :: no :: rest)

theorem mapM_wager {spots : List Spot} (h : ∀ spot ∈ spots, spot.OnLayout) :
    spots.mapM s.wager = .ok (spots.map s.bet) := by
  induction spots with
  | nil => rfl
  | cons spot spots ih =>
    obtain ⟨i, hi⟩ := (h spot List.mem_cons_self).exists_index
    have hwager : s.wager spot = .ok (s.bet spot) := by
      rw [wager_of_index hi, bet_of_wager (wager_of_index hi)]
    rw [List.mapM_cons, hwager, ih fun other hother => h other (List.mem_cons_of_mem _ hother)]
    rfl

/-- The spots by their numbers have the wagers of the seat in their order. -/
theorem map_bet_every (s : Seat κ) : Spot.every.map s.bet = s.wagers.toList := by
  refine List.ext_getElem ?_ fun n hn hw => ?_
  · rw [List.length_map, Spot.length_every, Vector.length_toList]
  · rw [List.getElem_map, Vector.getElem_toList]
    rw [Vector.length_toList] at hw
    exact bet_ofIndex s ⟨n, hw⟩

theorem covered (s : Seat κ) : s.Covered := by
  constructor
  case landings => exact fun _ => Spot.isLanding_iff
  case every =>
    simp only [addresses_iff]
    intro i
    constructor
    · rintro ⟨spot, hspot, rfl⟩
      have hmem : Spot.ofIndex i ∈ Spot.order := hspot.elim id Spot.IsLanding.mem_order
      exact (Spot.mem_order_ofIndex i).mp hmem
    · intro hraced
      exact ⟨Spot.ofIndex i, .inl ((Spot.mem_order_ofIndex i).mpr hraced), rfl⟩
  case once =>
    simp only [addresses_iff]
    intro i hyes hno
    obtain ⟨k, hk⟩ := List.mem_iff_get.mp ((Spot.mem_order_ofIndex i).mpr ⟨hyes, hno⟩)
    refine ⟨k, hk.symm, fun m hm => ?_⟩
    exact List.nodup_iff_injective_get.mp order_nodup (hm.symm.trans hk.symm)
  case listed =>
    have hlayout : ∀ spot ∈ Spot.order, spot.OnLayout := by decide
    refine ⟨s.bet (.yes 7), s.bet (.no 7), Spot.order.map s.bet, rfl, rfl, mapM_wager hlayout, ?_⟩
    refine (toList_felt_perm s).trans ?_
    rw [← map_bet_every]
    exact Spot.every_perm.map s.bet

/-- The wagers of a seat by name are those by number. -/
structure Named (s : Seat κ) : Prop where
  dealt : s.deal s.felt = s
  read : ∀ spot, s.felt.read spot = s.wager spot
  write : ∀ spot w, s.deal <$> s.felt.write spot w = s.setWager spot w
  hasRiding : s.hasRiding = s.felt.toList.any Wager.rides
  atRisk : s.atRisk = (s.felt.toList.filter Wager.rides).foldlM
    (fun total w => Amount.add total w.amount) 0

/-- Spots are lenses on a seat, apart from each other, and have all of its wagers between them. A
spot with a number of its class reads and writes one wager: what was written is read, writing back
what was read changes nothing, and neither the wager of another spot nor what is no wager is
touched. A spot with any other number is refused, read or written. The spots that a roll decides,
with those to which it sends wagers from the come boxes, have every wager but the two of the seven
raced against itself, each of them on one place of the order. And all this is so whether wagers are
read, written and listed by number or by name. -/
theorem spots_are_lenses (s : Seat κ) :
    (∀ spot : Spot, spot.OnLayout → s.Lens spot) ∧
      (∀ spot : Spot, ¬ spot.OnLayout →
        s.wager spot = .error .invalidPoint ∧ ∀ w, s.setWager spot w = .error .invalidPoint) ∧
      s.Covered ∧ s.Named := by
  refine ⟨fun _ => s.lens_of_onLayout, fun _ => s.refused_of_not_onLayout, covered s, ?_⟩
  exact ⟨deal_felt s, read_felt s, deal_write_felt s, hasRiding_eq_any s, atRisk_eq_foldlM s⟩

/-- Ten on the six of the come bets: read there and on no other bet on the six, taken back by one
more write; a come bet on the seven is refused. -/
theorem spots_are_lenses_comeSix : ∃ t : Seat Unit,
    (blank ()).setWager (.come 6) ⟨10, 2, 0⟩ = .ok t ∧ t.wager (.come 6) = .ok ⟨10, 2, 0⟩ ∧
      t.wager (.dontCome 6) = .ok .blank ∧ t.setWager (.come 6) .blank = .ok (blank ()) ∧
      t.wager (.come 7) = .error .invalidPoint := by
  obtain ⟨hlens, -⟩ := spots_are_lenses (blank ())
  have hsix : (blank ()).Lens (.come 6) := hlens (.come 6) (by decide)
  obtain ⟨i, hi⟩ := hsix.address
  have hwrite := hi.writes ⟨10, 2, 0⟩
  refine ⟨_, hwrite, hsix.read_write hwrite, ?_, ?_, ?_⟩
  · rw [hsix.others hwrite (.dontCome 6) (by decide)]
    rfl
  · rw [hsix.write_write hwrite]
    exact hsix.write_read rfl
  · exact ((spots_are_lenses _).2.1 (.come 7) (by decide)).1

end Seat

end DiceHouse
