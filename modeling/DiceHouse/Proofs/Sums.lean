import Mathlib.Algebra.BigOperators.Fin

/-!
# Sums

Facts about sums of natural numbers that the accounting rests on: writing one place of a vector
changes one summand of a sum over it, and rounding each of many quotients down never gives more than
rounding the quotient of the sum down, nor less by one for each positive summand.
-/

namespace DiceHouse

@[simp] theorem get_replicate {α : Type} {n : Nat} (x : α) (i : Fin n) :
    (Vector.replicate n x).get i = x := Vector.getElem_replicate i.isLt

/-- A place of a vector after one place was written. -/
theorem get_set {α : Type} {n : Nat} (v : Vector α n) (k i : Fin n) (x : α) :
    (v.set k x k.isLt).get i = if i = k then x else v.get i := by
  change (v.set k x k.isLt)[i.val] = if i = k then x else v[i.val]
  simp only [Vector.getElem_set, Fin.val_inj, eq_comm]

/-- Writing one place of a vector puts one summand in the place of another. -/
theorem sum_set {α : Type} {n : Nat} (f : Fin n → α → Nat) (v : Vector α n) (k : Fin n) (x : α) :
    (∑ i, f i ((v.set k x k.isLt).get i)) + f k (v.get k) = (∑ i, f i (v.get i)) + f k x := by
  rw [← Finset.add_sum_erase _ _ (Finset.mem_univ k),
    ← Finset.add_sum_erase _ (fun i => f i (v.get i)) (Finset.mem_univ k)]
  have hrest : ∀ i ∈ Finset.univ.erase k, f i ((v.set k x k.isLt).get i) = f i (v.get i) := by
    intro i hi
    rw [get_set, if_neg (Finset.ne_of_mem_erase hi)]
  rw [Finset.sum_congr rfl hrest, get_set, if_pos rfl]
  omega

/-- A summand is no more than the sum. -/
theorem le_sum_map {α : Type} {s : Multiset α} {a : α} (f : α → Nat) (h : a ∈ s) :
    f a ≤ (s.map f).sum := by
  obtain ⟨rest, rfl⟩ := Multiset.exists_cons_of_mem h
  rw [Multiset.map_cons, Multiset.sum_cons]
  exact Nat.le_add_right _ _

/-- There are no more positive summands than units in the sum. -/
theorem countP_pos_le_sum {α : Type} (s : Multiset α) (f : α → Nat) :
    s.countP (fun a => 0 < f a) ≤ (s.map f).sum := by
  induction s using Multiset.induction_on with
  | empty => simp
  | cons a s ih =>
    rw [Multiset.map_cons, Multiset.sum_cons, Multiset.countP_cons]
    split <;> omega

/-- Rounding down in every summand loses no less than rounding down once. -/
theorem sum_mul_div_le {α : Type} (s : Multiset α) (f : α → Nat) (num den : Nat) :
    (s.map fun a => f a * num / den).sum ≤ (s.map f).sum * num / den := by
  induction s using Multiset.induction_on with
  | empty => simp
  | cons a s ih =>
    rw [Multiset.map_cons, Multiset.sum_cons, Multiset.map_cons, Multiset.sum_cons, Nat.add_mul]
    exact (Nat.add_le_add_left ih _).trans Nat.div_add_div_le_add_div

/-- Rounding down loses less than one in every positive summand, and nothing in the others. -/
theorem sum_mul_add_countP_le {α : Type} (s : Multiset α) (f : α → Nat) (num : Nat) {den : Nat}
    (hden : 0 < den) :
    (s.map f).sum * num + s.countP (fun a => 0 < f a)
      ≤ ((s.map fun a => f a * num / den).sum + s.countP fun a => 0 < f a) * den := by
  induction s using Multiset.induction_on with
  | empty => simp
  | cons a s ih =>
    simp only [Multiset.map_cons, Multiset.sum_cons, Multiset.countP_cons, Nat.add_mul] at ih ⊢
    have hlost : f a * num < f a * num / den * den + den := Nat.lt_div_mul_add hden
    split
    · omega
    · next hzero =>
      rw [Nat.eq_zero_of_not_pos hzero, Nat.zero_mul]
      omega

/-- Rounding down once loses something too. -/
theorem sum_mul_div_le_sum_add {α : Type} (s : Multiset α) (f : α → Nat) (num : Nat) {den : Nat}
    (hden : 0 < den) :
    (s.map f).sum * num / den
      ≤ (s.map fun a => f a * num / den).sum + (s.countP (fun a => 0 < f a) - 1) := by
  have hle := sum_mul_add_countP_le s f num hden
  rcases Nat.eq_zero_or_pos (s.countP fun a => 0 < f a) with hnone | hsome
  · rw [hnone] at hle ⊢
    refine Nat.div_le_of_le_mul ?_
    rw [Nat.mul_comm den]
    exact hle
  · refine Nat.le_of_lt_succ ((Nat.div_lt_iff_lt_mul hden).mpr ?_)
    have hcount : (s.map fun a => f a * num / den).sum + (s.countP (fun a => 0 < f a) - 1) + 1
        = (s.map fun a => f a * num / den).sum + s.countP fun a => 0 < f a := by omega
    rw [Nat.succ_eq_add_one, hcount]
    omega

/-- Whole multiples are not rounded. -/
theorem sum_mul_div_of_dvd {α : Type} (s : Multiset α) (f : α → Nat) {num den : Nat}
    (hwhole : den ∣ num) :
    (s.map fun a => f a * num / den).sum = (s.map f).sum * num / den := by
  simp only [Nat.mul_div_assoc _ hwhole]
  exact Multiset.sum_map_mul_right

/-- So much for each that has a property. -/
theorem sum_ite_eq_countP {α : Type} (s : Multiset α) (p : α → Prop) [DecidablePred p] (c : Nat) :
    (s.map fun a => if p a then c else 0).sum = s.countP p * c := by
  induction s using Multiset.induction_on with
  | empty => simp
  | cons a s ih =>
    rw [Multiset.map_cons, Multiset.sum_cons, Multiset.countP_cons, Nat.add_mul, ih]
    split <;> omega

end DiceHouse
