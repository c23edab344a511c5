import DiceHouse.Spot

/-!
# Spots by their numbers

`Spot.index?` numbers the spots that exist. `Spot.ofIndex` goes back: every number belongs to
exactly one spot, so a seat's wagers can be gone through by number without missing a spot or meeting
one twice. The order in which a roll decides the spots has all of them except the two races of the
seven against itself, on which nobody can bet.
-/

namespace DiceHouse.Spot

/-- The spots by their numbers. -/
def every : List Spot :=
  [passLine, dontPass, passOdds, dontPassOdds, comeBox, dontComeBox]
    ++ Dice.pointNumbers.toList.map come
    ++ Dice.pointNumbers.toList.map comeOdds
    ++ Dice.pointNumbers.toList.map dontCome
    ++ Dice.pointNumbers.toList.map dontComeOdds
    ++ Dice.pointNumbers.toList.map place
    ++ Dice.hardwayNumbers.toList.map hardway
    ++ [field, anySeven, anyCraps, yo, aces, twelve]
    ++ Dice.sums.toList.map yes
    ++ Dice.sums.toList.map no
    ++ Dice.sums.toList.map next
    ++ [fire, small, tall, all, ride, corner]

theorem length_every : every.length = spotCount := by decide

/-- The spot with a number. -/
def ofIndex (i : Fin spotCount) : Spot := every.get (i.cast length_every.symm)

theorem index?_ofIndex (i : Fin spotCount) : (ofIndex i).index? = some i := by
  revert i
  decide +kernel

/-- A spot on a number of a class has the number of that member of the class. -/
theorem block_eq_some_iff {k start : Nat} {fits : start + k ≤ spotCount} {j? : Option (Fin k)}
    {i : Fin spotCount} :
    block start fits j? = some i ↔
      ∃ j, j? = some j ∧ (j.natAdd start).castLE fits = i := by
  unfold block
  exact Option.map_eq_some_iff

/-- The spots of a class stand from `start` on in the order of their numbers. -/
theorem ofIndex_block {k : Nat} (start : Nat) (make : Nat → Spot) (number : Fin k → Nat)
    (fits : start + k ≤ spotCount)
    (hmake : ∀ j : Fin k, ofIndex ((j.natAdd start).castLE fits) = make (number j))
    {j? : Option (Fin k)} {n : Nat} (hnumber : ∀ j, j? = some j → number j = n)
    {i : Fin spotCount} (h : block start fits j? = some i) : ofIndex i = make n := by
  obtain ⟨j, hj, rfl⟩ := block_eq_some_iff.mp h
  rw [hmake j, hnumber j hj]

theorem ofIndex_block_point (start : Nat) (make : Nat → Spot) (fits : start + 6 ≤ spotCount)
    (hmake : ∀ j : Fin 6, ofIndex ((j.natAdd start).castLE fits) = make Dice.pointNumbers[j])
    {n : Nat} {i : Fin spotCount} (h : block start fits (Dice.pointIndex? n) = some i) :
    ofIndex i = make n :=
  ofIndex_block start make _ fits hmake (fun _ => Dice.pointIndex?_eq_some_iff.mp) h

theorem ofIndex_block_hardway (start : Nat) (make : Nat → Spot) (fits : start + 4 ≤ spotCount)
    (hmake : ∀ j : Fin 4, ofIndex ((j.natAdd start).castLE fits) = make Dice.hardwayNumbers[j])
    {n : Nat} {i : Fin spotCount} (h : block start fits (Dice.hardwayIndex? n) = some i) :
    ofIndex i = make n :=
  ofIndex_block start make _ fits hmake (fun _ => Dice.hardwayIndex?_eq_some_iff.mp) h

theorem ofIndex_block_sum (start : Nat) (make : Nat → Spot) (fits : start + 11 ≤ spotCount)
    (hmake : ∀ j : Fin 11, ofIndex ((j.natAdd start).castLE fits) = make (j + 2))
    {n : Nat} {i : Fin spotCount} (h : block start fits (Dice.sumIndex? n) = some i) :
    ofIndex i = make n :=
  ofIndex_block start make _ fits hmake (fun _ hj => (Dice.sumIndex?_eq_some_iff.mp hj).symm) h

/-- A number belongs to one spot only. -/
theorem ofIndex_of_index? {spot : Spot} {i : Fin spotCount} (h : spot.index? = some i) :
    ofIndex i = spot := by
  cases spot with
  | come n => exact ofIndex_block_point 6 come (by decide) (by decide) h
  | comeOdds n => exact ofIndex_block_point 12 comeOdds (by decide) (by decide) h
  | dontCome n => exact ofIndex_block_point 18 dontCome (by decide) (by decide) h
  | dontComeOdds n => exact ofIndex_block_point 24 dontComeOdds (by decide) (by decide) h
  | place n => exact ofIndex_block_point 30 place (by decide) (by decide) h
  | hardway n => exact ofIndex_block_hardway 36 hardway (by decide) (by decide) h
  | yes n => exact ofIndex_block_sum 46 yes (by decide) (by decide) h
  | no n => exact ofIndex_block_sum 57 no (by decide) (by decide) h
  | next n => exact ofIndex_block_sum 68 next (by decide) (by decide) h
  | _ =>
    cases h
    rfl

theorem index?_inj {a b : Spot} {i : Fin spotCount} (ha : a.index? = some i)
    (hb : b.index? = some i) : a = b :=
  (ofIndex_of_index? ha).symm.trans (ofIndex_of_index? hb)

theorem ofIndex_inj {i j : Fin spotCount} (h : ofIndex i = ofIndex j) : i = j := by
  have hindex := congrArg index? h
  rw [index?_ofIndex, index?_ofIndex] at hindex
  exact Option.some.inj hindex

/-! ## The order -/

/-- Every number stands in the order, but those of the seven raced against itself. -/
theorem mem_order_ofIndex (i : Fin spotCount) :
    ofIndex i ∈ order ↔ ofIndex i ≠ yes 7 ∧ ofIndex i ≠ no 7 := by
  revert i
  decide +kernel

/-- Beside the two races of the seven the order has every spot once. -/
theorem every_perm : every.Perm (yes 7 :: no 7 :: order) := by decide +kernel

theorem exists_index_of_mem_order {spot : Spot} (h : spot ∈ order) :
    ∃ i, spot.index? = some i := by
  cases hi : spot.index? with
  | some i => exact ⟨i, rfl⟩
  | none => exact absurd (hi ▸ List.mem_map_of_mem h) order_index_nodup.2

theorem mem_order_iff {spot : Spot} :
    spot ∈ order ↔ (∃ i, spot.index? = some i) ∧ spot ≠ yes 7 ∧ spot ≠ no 7 := by
  constructor
  · intro h
    obtain ⟨i, hi⟩ := exists_index_of_mem_order h
    have hspot := ofIndex_of_index? hi
    rw [← hspot] at h
    rw [← hspot]
    exact ⟨⟨i, index?_ofIndex i⟩, (mem_order_ofIndex i).mp h⟩
  · rintro ⟨⟨i, hi⟩, hy, hn⟩
    rw [← ofIndex_of_index? hi] at hy hn ⊢
    exact (mem_order_ofIndex i).mpr ⟨hy, hn⟩

end DiceHouse.Spot
