import DiceHouse.Proofs.Spot.Reserve
import DiceHouse.Proofs.Sums
import DiceHouse.Seat

/-!
# What a seat has at risk and ties up

The stake that rides at a seat and the bankroll that it ties up are both sums over its wagers by
number, `Seat.total`. Writing one wager changes one summand, which is what `total_setWager` says.

A seat is sound if what does not ride holds no stake and what rides has a reservation. A seat on
which nobody bet is, and writing wagers that are in order keeps it so.
-/

namespace DiceHouse

/-- A wager that does not ride holds nothing, and what one that rides can win is known. -/
structure Spot.Holds (spot : Spot) (w : Wager) : Prop where
  idle : w.rides = false → w.amount = 0
  reserved : w.rides = true → ∃ r, spot.reserve w.amount = .ok r

namespace Wager

variable {w : Wager}

theorem pos_of_rides (h : w.rides = true) : 0 < w.amount := by
  unfold rides at h
  simp only [Bool.and_eq_true, decide_eq_true_eq] at h
  exact h.1

theorem atRisk_of_rides (h : w.rides = true) : w.atRisk = w.amount := if_pos h

theorem atRisk_of_not_rides (h : w.rides = false) : w.atRisk = 0 := if_neg (by simp [h])

@[simp] theorem atRisk_cleared (e : WagerEnding) : (cleared e).atRisk = 0 := rfl

@[simp] theorem atRisk_carry (w : Wager) : w.carry.atRisk = w.atRisk := by
  unfold atRisk
  rw [rides_carry, amount_carry]

/-- Stake that is added rides, together with what rode before. -/
theorem add_ok {amount : Nat} {v : Wager} (hidle : w.rides = false → w.amount = 0)
    (hpos : 0 < amount) (h : w.add amount = .ok v) :
    v.rides = true ∧ v.amount = w.atRisk + amount ∧ v.amount < Amount.limit := by
  unfold add at h
  simp only [bind_eq_ok_iff, Amount.add_eq_ok_iff] at h
  obtain ⟨total, ⟨hlt, rfl⟩, h⟩ := h
  split at h
  · next hr =>
    rw [pure_eq_ok_iff] at h
    subst h
    refine ⟨?_, by rw [atRisk_of_rides hr], hlt⟩
    unfold rides stage at hr ⊢
    simp only [Bool.and_eq_true, decide_eq_true_eq] at hr ⊢
    exact ⟨by omega, hr.2⟩
  · next hr =>
    rw [pure_eq_ok_iff] at h
    subst h
    have hr : w.rides = false := by simpa using hr
    refine ⟨?_, by rw [atRisk_of_not_rides hr, hidle hr], hlt⟩
    have hsum : 0 < w.amount + amount := by omega
    simp [rides, stage, WagerStage.code, WagerStage.ofCode?, hsum]

end Wager

namespace Seat

variable {κ : Type} {s t : Seat κ} {spot : Spot} {v w : Wager}

/-- A sum over the wagers of a seat, each with the spot that it is on. -/
def total (measure : Spot → Wager → Nat) (s : Seat κ) : Nat :=
  ∑ i : Fin spotCount, measure (Spot.ofIndex i) (s.wagers.get i)

/-- The stake that rides at a seat. -/
def stakes (s : Seat κ) : Nat := s.total fun _ w => w.atRisk

/-- The bankroll that the riding wagers of a seat tie up. -/
def exposure (s : Seat κ) : Nat := s.total fun spot w => spot.tied w.atRisk

/-- The wagers that do not ride are empty, and those that ride have a reservation. -/
def Sound (s : Seat κ) : Prop := ∀ i : Fin spotCount, (Spot.ofIndex i).Holds (s.wagers.get i)

/-! ## One wager -/

theorem wager_ok (h : s.wager spot = .ok w) :
    ∃ i, spot.index? = some i ∧ Spot.ofIndex i = spot ∧ s.wagers.get i = w := by
  unfold wager at h
  split at h
  · next i hi => exact ⟨i, hi, Spot.ofIndex_of_index? hi, Except.ok.inj h⟩
  · cases h

theorem wager_ofIndex (s : Seat κ) (i : Fin spotCount) :
    s.wager (Spot.ofIndex i) = .ok (s.wagers.get i) :=
  wager_of_index (Spot.index?_ofIndex i)

theorem setWager_ok (h : s.setWager spot w = .ok t) :
    ∃ i, spot.index? = some i ∧ Spot.ofIndex i = spot ∧
      t = { s with wagers := s.wagers.set i w i.isLt } := by
  unfold setWager at h
  split at h
  · next i hi => exact ⟨i, hi, Spot.ofIndex_of_index? hi, (Except.ok.inj h).symm⟩
  · cases h

/-- Nothing but wagers is written on a spot. -/
theorem pending_setWager (h : s.setWager spot w = .ok t) : t.pending = s.pending := by
  obtain ⟨i, -, -, rfl⟩ := setWager_ok h
  rfl

theorem owner_setWager (h : s.setWager spot w = .ok t) : t.owner = s.owner := by
  obtain ⟨i, -, -, rfl⟩ := setWager_ok h
  rfl

/-- The wagers on other spots stay. -/
theorem wager_setWager_of_ne {other : Spot} (h : s.setWager spot w = .ok t) (hne : other ≠ spot) :
    t.wager other = s.wager other := by
  obtain ⟨i, hi, -, rfl⟩ := setWager_ok h
  unfold wager
  cases hj : other.index? with
  | none => rfl
  | some j =>
    have hij : j ≠ i := fun hc => hne (Spot.index?_inj hj (hc ▸ hi))
    dsimp only
    rw [get_set, if_neg hij]

/-! ## Sums over the wagers -/

theorem total_congr (measure : Spot → Wager → Nat) (h : t.wagers = s.wagers) :
    t.total measure = s.total measure := by
  unfold total
  rw [h]

/-- A write puts one summand in the place of another. -/
theorem total_setWager (measure : Spot → Wager → Nat) (hv : s.wager spot = .ok v)
    (h : s.setWager spot w = .ok t) :
    t.total measure + measure spot v = s.total measure + measure spot w := by
  obtain ⟨i, hi, hspot, rfl⟩ := setWager_ok h
  obtain ⟨j, hj, -, hvj⟩ := wager_ok hv
  cases hj.symm.trans hi
  have h := sum_set (fun i w => measure (Spot.ofIndex i) w) s.wagers i w
  rw [hvj, hspot] at h
  exact h

theorem stakes_setWager (hv : s.wager spot = .ok v) (h : s.setWager spot w = .ok t) :
    t.stakes + v.atRisk = s.stakes + w.atRisk :=
  total_setWager _ hv h

theorem exposure_setWager (hv : s.wager spot = .ok v) (h : s.setWager spot w = .ok t) :
    t.exposure + spot.tied v.atRisk = s.exposure + spot.tied w.atRisk :=
  total_setWager _ hv h

theorem total_eq_sum_map (measure : Wager → Nat) (s : Seat κ) :
    (s.total fun _ w => measure w) = (s.wagers.toList.map measure).sum := by
  rw [← Fin.sum_univ_fun_getElem]
  exact Fintype.sum_equiv (finCongr s.wagers.length_toList.symm) _ _ fun i =>
    congrArg measure (Vector.getElem_toList _).symm

/-- Amounts are added up without a refusal exactly if their sum is an amount. -/
theorem foldlM_add_eq_ok_iff {ws : List Wager} {start n : Nat} (hstart : start < Amount.limit) :
    ws.foldlM (fun total w => Amount.add total w.amount) start = .ok n ↔
      start + (ws.map Wager.amount).sum < Amount.limit ∧
        n = start + (ws.map Wager.amount).sum := by
  induction ws generalizing start with
  | nil =>
    rw [List.foldlM_nil, pure_eq_ok_iff, eq_comm]
    exact (and_iff_right hstart).symm
  | cons w ws ih =>
    rw [List.foldlM_cons, bind_eq_ok_iff, List.map_cons, List.sum_cons, ← Nat.add_assoc]
    constructor
    · rintro ⟨first, hfirst, h⟩
      obtain ⟨hlt, rfl⟩ := Amount.add_eq_ok_iff.mp hfirst
      exact (ih hlt).mp h
    · intro h
      have hlt : start + w.amount < Amount.limit := (Nat.le_add_right _ _).trans_lt h.1
      exact ⟨_, Amount.add_of_lt hlt, (ih hlt).mpr h⟩

theorem sum_filter_rides (ws : List Wager) :
    ((ws.filter Wager.rides).map Wager.amount).sum = (ws.map Wager.atRisk).sum := by
  induction ws with
  | nil => rfl
  | cons w ws ih =>
    rw [List.map_cons, List.sum_cons, ← ih]
    cases hr : w.rides with
    | true =>
      rw [List.filter_cons_of_pos hr, List.map_cons, List.sum_cons, Wager.atRisk_of_rides hr]
    | false =>
      rw [List.filter_cons_of_neg (by simp [hr]), Wager.atRisk_of_not_rides hr, Nat.zero_add]

theorem stakes_eq (s : Seat κ) :
    s.stakes = ((s.wagers.toList.filter Wager.rides).map Wager.amount).sum := by
  rw [sum_filter_rides]
  exact total_eq_sum_map Wager.atRisk s

/-- The stake that rides is told exactly if it is an amount. -/
theorem atRisk_eq_ok_iff {n : Nat} : s.atRisk = .ok n ↔ s.stakes < Amount.limit ∧ n = s.stakes := by
  rw [stakes_eq]
  unfold atRisk
  rw [foldlM_add_eq_ok_iff (by decide), Nat.zero_add]

theorem atRisk_of_lt (h : s.stakes < Amount.limit) : s.atRisk = .ok s.stakes :=
  atRisk_eq_ok_iff.mpr ⟨h, rfl⟩

/-! ## Soundness -/

theorem Sound.congr (hs : s.Sound) (h : t.wagers = s.wagers) : t.Sound := by
  unfold Sound
  rw [h]
  exact hs

theorem Sound.holds (hs : s.Sound) (h : s.wager spot = .ok w) : spot.Holds w := by
  obtain ⟨i, -, hspot, rfl⟩ := wager_ok h
  exact hspot ▸ hs i

theorem Sound.setWager (hs : s.Sound) (hw : spot.Holds w) (h : s.setWager spot w = .ok t) :
    t.Sound := by
  obtain ⟨i, -, hspot, rfl⟩ := setWager_ok h
  intro j
  dsimp only
  by_cases hij : j = i
  · subst hij
    rw [get_set, if_pos rfl, hspot]
    exact hw
  · rw [get_set, if_neg hij]
    exact hs j

theorem holds_cleared (spot : Spot) (e : WagerEnding) : spot.Holds (Wager.cleared e) :=
  ⟨fun _ => rfl, fun h => absurd h (by simp)⟩

theorem holds_carry (hw : spot.Holds w) : spot.Holds w.carry := by
  refine ⟨fun h => ?_, fun h => ?_⟩
  · rw [Wager.rides_carry] at h
    rw [Wager.amount_carry]
    exact hw.idle h
  · rw [Wager.rides_carry] at h
    rw [Wager.amount_carry]
    exact hw.reserved h

theorem wagers_blank (owner : κ) (i : Fin spotCount) :
    (blank owner).wagers.get i = Wager.blank := by
  simp [blank]

theorem sound_blank (owner : κ) : (blank owner).Sound := by
  intro i
  rw [wagers_blank]
  exact ⟨fun _ => rfl, fun h => absurd h (by simp)⟩

theorem total_blank (owner : κ) {measure : Spot → Wager → Nat}
    (h : ∀ spot, measure spot Wager.blank = 0) : (blank owner).total measure = 0 := by
  unfold total
  refine Finset.sum_eq_zero fun i _ => ?_
  rw [wagers_blank, h]

theorem stakes_blank (owner : κ) : (blank owner).stakes = 0 := total_blank owner fun _ => rfl

theorem exposure_blank (owner : κ) : (blank owner).exposure = 0 := total_blank owner Spot.tied_zero

end Seat

end DiceHouse
