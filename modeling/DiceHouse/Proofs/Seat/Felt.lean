import DiceHouse.Proofs.Seat.Rulings

/-!
# The wagers of a seat by name

A seat keeps its wagers in one row, and a spot finds its own by number. `Felt` has the same wagers
by name instead: one for each spot that is on no number, and a row for each class of spots that are,
in which each has the place that its number has among the numbers of the class. Four things are
written out once more over these names, spot by spot and without the numbering: how a wager is read
(`Felt.read`), how it is written (`Felt.write`), how all are gone through (`Felt.toList`) and in which
order a record has them (`Felt.row`).

`Seat.felt` names the wagers of a seat and `Seat.deal` puts a felt in their place. Reading and
writing by name come to the same as by number (`read_felt`, `deal_write_felt`), the row of the names
is the row of the seat (`deal_felt`), and going through the names meets what going through the row
does, in another order (`toList_felt_perm`).
-/

namespace DiceHouse

/-- The wagers of one player by the names of their places. -/
structure Felt where
  passLine : Wager
  dontPass : Wager
  passOdds : Wager
  dontPassOdds : Wager
  comeBox : Wager
  dontComeBox : Wager
  /-- A wager for each number that can be the point, in ascending order; so in the next rows. -/
  come : Vector Wager 6
  comeOdds : Vector Wager 6
  dontCome : Vector Wager 6
  dontComeOdds : Vector Wager 6
  place : Vector Wager 6
  hardway : Vector Wager 4
  field : Wager
  anySeven : Wager
  anyCraps : Wager
  yo : Wager
  aces : Wager
  twelve : Wager
  /-- A wager for each sum of two dice, the seven included; so in the next rows. -/
  yes : Vector Wager 11
  no : Vector Wager 11
  next : Vector Wager 11
  fire : Wager
  small : Wager
  tall : Wager
  all : Wager
  ride : Wager
  corner : Wager
  deriving DecidableEq, Repr

namespace Felt

variable {k : Nat}

/-- The wagers one after another, as a record has them. -/
def row (f : Felt) : Vector Wager (6 + 6 + 6 + 6 + 6 + 6 + 4 + 6 + 11 + 11 + 11 + 6) :=
  #v[f.passLine, f.dontPass, f.passOdds, f.dontPassOdds, f.comeBox, f.dontComeBox]
    ++ f.come ++ f.comeOdds ++ f.dontCome ++ f.dontComeOdds ++ f.place ++ f.hardway
    ++ #v[f.field, f.anySeven, f.anyCraps, f.yo, f.aces, f.twelve]
    ++ f.yes ++ f.no ++ f.next ++ #v[f.fire, f.small, f.tall, f.all, f.ride, f.corner]

/-- All wagers, the single ones before the rows. -/
def toList (f : Felt) : List Wager :=
  [f.passLine, f.dontPass, f.passOdds, f.dontPassOdds, f.comeBox, f.dontComeBox, f.field,
      f.anySeven, f.anyCraps, f.yo, f.aces, f.twelve, f.fire, f.small, f.tall, f.all, f.ride,
      f.corner]
    ++ f.come.toList ++ f.comeOdds.toList ++ f.dontCome.toList ++ f.dontComeOdds.toList
    ++ f.place.toList ++ f.hardway.toList ++ f.yes.toList ++ f.no.toList ++ f.next.toList

/-- The wager of a row on a number, if the number is of the class. -/
def cell (cells : Vector Wager k) : Option (Fin k) → Except Fault Wager
  | some j => .ok (cells.get j)
  | none => .error .invalidPoint

/-- The row with another wager on a number. -/
def setCell (cells : Vector Wager k) (j? : Option (Fin k)) (w : Wager) :
    Except Fault (Vector Wager k) :=
  match j? with
  | some j => .ok (cells.set j w j.isLt)
  | none => .error .invalidPoint

/-- The wager on a spot. -/
def read (f : Felt) : Spot → Except Fault Wager
  | .passLine => .ok f.passLine
  | .dontPass => .ok f.dontPass
  | .passOdds => .ok f.passOdds
  | .dontPassOdds => .ok f.dontPassOdds
  | .comeBox => .ok f.comeBox
  | .dontComeBox => .ok f.dontComeBox
  | .come n => cell f.come (Dice.pointIndex? n)
  | .comeOdds n => cell f.comeOdds (Dice.pointIndex? n)
  | .dontCome n => cell f.dontCome (Dice.pointIndex? n)
  | .dontComeOdds n => cell f.dontComeOdds (Dice.pointIndex? n)
  | .place n => cell f.place (Dice.pointIndex? n)
  | .hardway n => cell f.hardway (Dice.hardwayIndex? n)
  | .field => .ok f.field
  | .anySeven => .ok f.anySeven
  | .anyCraps => .ok f.anyCraps
  | .yo => .ok f.yo
  | .aces => .ok f.aces
  | .twelve => .ok f.twelve
  | .yes n => cell f.yes (Dice.sumIndex? n)
  | .no n => cell f.no (Dice.sumIndex? n)
  | .next n => cell f.next (Dice.sumIndex? n)
  | .fire => .ok f.fire
  | .small => .ok f.small
  | .tall => .ok f.tall
  | .all => .ok f.all
  | .ride => .ok f.ride
  | .corner => .ok f.corner

/-- The felt with another wager on a spot. -/
def write (f : Felt) (spot : Spot) (w : Wager) : Except Fault Felt :=
  match spot with
  | .passLine => .ok { f with passLine := w }
  | .dontPass => .ok { f with dontPass := w }
  | .passOdds => .ok { f with passOdds := w }
  | .dontPassOdds => .ok { f with dontPassOdds := w }
  | .comeBox => .ok { f with comeBox := w }
  | .dontComeBox => .ok { f with dontComeBox := w }
  | .come n => ({ f with come := · }) <$> setCell f.come (Dice.pointIndex? n) w
  | .comeOdds n => ({ f with comeOdds := · }) <$> setCell f.comeOdds (Dice.pointIndex? n) w
  | .dontCome n => ({ f with dontCome := · }) <$> setCell f.dontCome (Dice.pointIndex? n) w
  | .dontComeOdds n =>
    ({ f with dontComeOdds := · }) <$> setCell f.dontComeOdds (Dice.pointIndex? n) w
  | .place n => ({ f with place := · }) <$> setCell f.place (Dice.pointIndex? n) w
  | .hardway n => ({ f with hardway := · }) <$> setCell f.hardway (Dice.hardwayIndex? n) w
  | .field => .ok { f with field := w }
  | .anySeven => .ok { f with anySeven := w }
  | .anyCraps => .ok { f with anyCraps := w }
  | .yo => .ok { f with yo := w }
  | .aces => .ok { f with aces := w }
  | .twelve => .ok { f with twelve := w }
  | .yes n => ({ f with yes := · }) <$> setCell f.yes (Dice.sumIndex? n) w
  | .no n => ({ f with no := · }) <$> setCell f.no (Dice.sumIndex? n) w
  | .next n => ({ f with next := · }) <$> setCell f.next (Dice.sumIndex? n) w
  | .fire => .ok { f with fire := w }
  | .small => .ok { f with small := w }
  | .tall => .ok { f with tall := w }
  | .all => .ok { f with all := w }
  | .ride => .ok { f with ride := w }
  | .corner => .ok { f with corner := w }

/-- The record has each wager once, as the list has. -/
theorem toList_perm_row (f : Felt) : f.toList.Perm f.row.toList := by
  have hsingle : [f.passLine, f.dontPass, f.passOdds, f.dontPassOdds, f.comeBox, f.dontComeBox,
      f.field, f.anySeven, f.anyCraps, f.yo, f.aces, f.twelve, f.fire, f.small, f.tall, f.all,
      f.ride, f.corner]
      = [f.passLine, f.dontPass, f.passOdds, f.dontPassOdds, f.comeBox, f.dontComeBox]
        ++ [f.field, f.anySeven, f.anyCraps, f.yo, f.aces, f.twelve]
        ++ [f.fire, f.small, f.tall, f.all, f.ride, f.corner] := rfl
  refine Multiset.coe_eq_coe.mp ?_
  simp only [toList, row, hsingle, Vector.toList_append, Vector.toList_mk, ← Multiset.coe_add]
  ac_rfl

end Felt

/-- Two additions in a row are one, also where the first is refused. -/
theorem Amount.add_bind_add (a b c : Nat) : (add a b >>= fun n => add n c) = fit (a + b + c) := by
  by_cases hlt : a + b < limit
  · rw [add_of_lt hlt]
    rfl
  · have hle : limit ≤ a + b := Nat.le_of_not_lt hlt
    rw [add_of_le hle]
    exact (add_of_le (hle.trans (Nat.le_add_right _ c))).symm

namespace Seat

variable {κ : Type} {k start : Nat} {s : Seat κ} {spot : Spot} {w : Wager}
  {cells : Vector Wager k} {j? : Option (Fin k)}

/-- The seat with the wagers of a felt. -/
def deal (s : Seat κ) (f : Felt) : Seat κ := { s with wagers := f.row }

/-- The wagers of a seat by name. -/
def felt (s : Seat κ) : Felt where
  passLine := s.bet .passLine
  dontPass := s.bet .dontPass
  passOdds := s.bet .passOdds
  dontPassOdds := s.bet .dontPassOdds
  comeBox := s.bet .comeBox
  dontComeBox := s.bet .dontComeBox
  come := Dice.pointNumbers.map fun n => s.bet (.come n)
  comeOdds := Dice.pointNumbers.map fun n => s.bet (.comeOdds n)
  dontCome := Dice.pointNumbers.map fun n => s.bet (.dontCome n)
  dontComeOdds := Dice.pointNumbers.map fun n => s.bet (.dontComeOdds n)
  place := Dice.pointNumbers.map fun n => s.bet (.place n)
  hardway := Dice.hardwayNumbers.map fun n => s.bet (.hardway n)
  field := s.bet .field
  anySeven := s.bet .anySeven
  anyCraps := s.bet .anyCraps
  yo := s.bet .yo
  aces := s.bet .aces
  twelve := s.bet .twelve
  yes := Dice.sums.map fun n => s.bet (.yes n)
  no := Dice.sums.map fun n => s.bet (.no n)
  next := Dice.sums.map fun n => s.bet (.next n)
  fire := s.bet .fire
  small := s.bet .small
  tall := s.bet .tall
  all := s.bet .all
  ride := s.bet .ride
  corner := s.bet .corner

/-! ## Rows among the numbers -/

/-- A spot of a class reads its row, if the row is what the seat has from the first number of the
class on. -/
theorem wager_eq_cell (fits : start + k ≤ spotCount)
    (hindex : spot.index? = Spot.block start fits j?)
    (hcells : ∀ j : Fin k, s.wagers.get ((j.natAdd start).castLE fits) = cells.get j) :
    s.wager spot = Felt.cell cells j? := by
  unfold wager
  rw [hindex]
  cases j? with
  | none => rfl
  | some j => exact congrArg _ (hcells j)

/-- It writes its row, if the row is written there. -/
theorem setWager_eq_setCell {put : Vector Wager k → Seat κ} (fits : start + k ≤ spotCount)
    (hindex : spot.index? = Spot.block start fits j?)
    (hcells : ∀ j : Fin k,
      { s with wagers := s.wagers.set (start + j) w ((j.natAdd start).castLE fits).isLt }
        = put (cells.set j w j.isLt)) :
    s.setWager spot w = put <$> Felt.setCell cells j? w := by
  unfold setWager
  rw [hindex]
  cases j? with
  | none => rfl
  | some j => exact congrArg _ (hcells j)

/-! ## A felt on a seat -/

/-- Reading by number what was dealt is reading by name. -/
theorem wager_deal (s : Seat κ) (f : Felt) (spot : Spot) :
    (s.deal f).wager spot = f.read spot := by
  have hget (i : Fin spotCount) : (s.deal f).wagers.get i = getElem f.row i.val i.isLt := rfl
  cases spot
  -- a number of a class is as far into the record as all that stands before its row, and on by its
  -- place in the row
  case come | comeOdds | dontCome | dontComeOdds | place | hardway | yes | no | next =>
    refine wager_eq_cell (by decide) rfl fun j => (hget _).trans ?_
    have hj := j.isLt
    simp (disch := omega) only [Felt.row, Fin.val_castLE, Fin.val_natAdd,
      Vector.getElem_append_left, Vector.getElem_append_right, Nat.add_sub_cancel_left]
    rfl
  all_goals
    refine congrArg Except.ok ((hget _).trans ?_)
    simp (disch := omega) only [Felt.row, Fin.coe_ofNat_eq_mod, spotCount, Nat.reduceMod,
      Vector.getElem_append_left, Vector.getElem_append_right]
    rfl

/-- Writing by number what was dealt is dealing what was written by name. -/
theorem setWager_deal (s : Seat κ) (f : Felt) (spot : Spot) (w : Wager) :
    (s.deal f).setWager spot w = s.deal <$> f.write spot w := by
  cases spot
  case come | comeOdds | dontCome | dontComeOdds | place | hardway | yes | no | next =>
    simp only [Felt.write, Functor.map_map]
    refine setWager_eq_setCell (by decide) rfl fun j =>
      congrArg (fun v => { s with wagers := v }) ?_
    have hj := j.isLt
    change f.row.set _ w _ = _
    simp (disch := omega) only [Felt.row, Vector.set_append_left, Vector.set_append_right,
      Nat.add_sub_cancel_left]
  all_goals
    refine congrArg (fun v => Except.ok { s with wagers := v }) ?_
    change f.row.set _ w _ = _
    simp (disch := omega) only [Felt.row, Fin.coe_ofNat_eq_mod, spotCount, Nat.reduceMod,
      Vector.set_append_left, Vector.set_append_right]
    rfl

/-! ## The felt of a seat -/

/-- The row of a class among the numbers of a seat is that of its names. -/
theorem get_eq_get_map (make : Nat → Spot) (numbers : Vector Nat k) (fits : start + k ≤ spotCount)
    (hmake : ∀ j : Fin k, Spot.ofIndex ((j.natAdd start).castLE fits) = make (numbers.get j))
    (s : Seat κ) (j : Fin k) :
    s.wagers.get ((j.natAdd start).castLE fits) = (numbers.map fun n => s.bet (make n)).get j := by
  have hmap : (numbers.map fun n => s.bet (make n)).get j = s.bet (make (numbers.get j)) :=
    Vector.getElem_map _ j.isLt
  rw [hmap, ← hmake j]
  exact (bet_ofIndex s _).symm

/-- Reading by name is reading by number. -/
theorem read_felt (s : Seat κ) (spot : Spot) : s.felt.read spot = s.wager spot := by
  symm
  cases spot
  case come | comeOdds | dontCome | dontComeOdds | place =>
    exact wager_eq_cell (by decide) rfl (get_eq_get_map _ Dice.pointNumbers _ (by decide) s)
  case hardway =>
    exact wager_eq_cell (by decide) rfl (get_eq_get_map _ Dice.hardwayNumbers _ (by decide) s)
  case yes | no | next =>
    exact wager_eq_cell (by decide) rfl (get_eq_get_map _ Dice.sums _ (by decide) s)
  all_goals rfl

/-- Dealing a seat its own wagers changes nothing. -/
theorem deal_felt (s : Seat κ) : s.deal s.felt = s := by
  have hget (i : Fin spotCount) : (s.deal s.felt).wagers.get i = s.wagers.get i := by
    have hread := (wager_deal s s.felt (Spot.ofIndex i)).trans (read_felt s (Spot.ofIndex i))
    rw [wager_ofIndex, wager_ofIndex] at hread
    exact Except.ok.inj hread
  have hwagers : (s.deal s.felt).wagers = s.wagers := Vector.ext fun i hi => hget ⟨i, hi⟩
  exact congrArg (fun v => { s with wagers := v }) hwagers

/-- Writing by name is writing by number. -/
theorem deal_write_felt (s : Seat κ) (spot : Spot) (w : Wager) :
    s.deal <$> s.felt.write spot w = s.setWager spot w := by
  rw [← setWager_deal, deal_felt]

/-! ## Going through all wagers -/

theorem toList_felt_perm (s : Seat κ) : s.felt.toList.Perm s.wagers.toList := by
  have hrow : s.felt.row.toList = s.wagers.toList :=
    congrArg (fun t : Seat κ => t.wagers.toList) (deal_felt s)
  exact hrow ▸ s.felt.toList_perm_row

/-- Amounts are added up alike in any order, also where they are too large. -/
theorem foldlM_add_perm {ws vs : List Wager} (h : ws.Perm vs) (start : Nat) :
    ws.foldlM (fun total w => Amount.add total w.amount) start
      = vs.foldlM (fun total w => Amount.add total w.amount) start := by
  induction h generalizing start with
  | nil => rfl
  | cons w _ ih =>
    rw [List.foldlM_cons, List.foldlM_cons]
    exact congrArg _ (funext fun n => ih n)
  | swap v w ws =>
    simp only [List.foldlM_cons, ← bind_assoc]
    rw [Amount.add_bind_add, Amount.add_bind_add, Nat.add_right_comm]
  | trans _ _ ih ih' => exact (ih start).trans (ih' start)

theorem hasRiding_eq_any (s : Seat κ) : s.hasRiding = s.felt.toList.any Wager.rides := by
  rw [(toList_felt_perm s).any_eq]
  exact (Vector.any_toList).symm

theorem atRisk_eq_foldlM (s : Seat κ) :
    s.atRisk = (s.felt.toList.filter Wager.rides).foldlM
      (fun total w => Amount.add total w.amount) 0 :=
  (foldlM_add_perm ((toList_felt_perm s).filter _) 0).symm

end Seat

end DiceHouse
