import DiceHouse.Proofs.House.Run

/-!
# The table is the fold of the rolls

In every run each round that the table knows was taken by it at exactly one moment, with the roll
that the round was resolved with, whoever asked for it and whether a seat was settled along with it.
So the line is what those rolls make of a come-out, and the log answers for the rounds in its window
with the phases in between.
-/

namespace DiceHouse

/-- A count that starts at nothing and grows by one at a time reaches every number once. -/
theorem existsUnique_rise {f : Nat → Nat} (hzero : f 0 = 0)
    (hstep : ∀ j, f (j + 1) = f j ∨ f (j + 1) = f j + 1) {n k : Nat} (hpos : 1 ≤ n)
    (hle : n ≤ f k) : ∃! j, j < k ∧ f j + 1 = n ∧ f (j + 1) = n := by
  have hmono : Monotone f := by
    refine monotone_nat_of_le_succ fun j => ?_
    rcases hstep j with hsame | hrise
    · exact hsame.ge
    · rw [hrise]
      exact Nat.le_succ _
  have hexists : ∃ j, j < k ∧ f j + 1 = n ∧ f (j + 1) = n := by
    induction k with
    | zero => omega
    | succ k ih =>
      by_cases hearlier : n ≤ f k
      · obtain ⟨j, hj, hrise⟩ := ih hearlier
        exact ⟨j, Nat.lt_succ_of_lt hj, hrise⟩
      · rcases hstep k with hsame | hrise
        · omega
        · exact ⟨k, Nat.lt_succ_self k, by omega, by omega⟩
  obtain ⟨j, hj, hbefore, hafter⟩ := hexists
  refine ⟨j, ⟨hj, hbefore, hafter⟩, ?_⟩
  rintro i ⟨-, hbefore', hafter'⟩
  rcases Nat.lt_trichotomy i j with hlt | heq | hgt
  · have hle : f (i + 1) ≤ f j := hmono hlt
    omega
  · exact heq
  · have hle : f (j + 1) ≤ f i := hmono hgt
    omega

namespace Ledger

variable {l m : Ledger} {n : Nat} {roll : Roll}

/-- The last round whose roll the table took; 0 if there is no table. -/
def epoch (l : Ledger) : Nat := (l.line?.map Line.epoch).getD 0

theorem epoch_of_load {t : Table} (h : l.load .table .table = .ok t) : l.epoch = t.epoch := by
  unfold epoch
  rw [line?_of_load h]
  rfl

theorem epoch_of_line (h : m.line? = l.line?) : m.epoch = l.epoch := by
  unfold epoch
  rw [h]

/-- A table takes the roll of the round after its last. -/
theorem Takes.epoch (h : l.Takes m n roll) : l.epoch + 1 = n ∧ m.epoch = n := by
  obtain ⟨t, rolled, call, ht, htake, hline⟩ := h.applied
  obtain ⟨hn, -, before, -, hq⟩ := Table.applyRoll_eq_ok_iff.mp htake
  cases hq
  refine ⟨?_, ?_⟩
  · rw [epoch_of_load ht]
    exact hn.symm
  · unfold Ledger.epoch
    rw [hline]
    rfl

end Ledger

namespace House

variable {allowed : Instruction → Prop} {run : Run allowed Ledger.Outside} {j k n : Nat}
  {roll : Roll} {t : Table}

/-- From one moment to the next the table is opened, keeps its line, or takes a roll. -/
theorem Run.line_step (run : Run allowed Ledger.Outside) (j : Nat) :
    (run.ledger j).line? = none ∧ (run.ledger (j + 1)).epoch = 0 ∨
      (run.ledger (j + 1)).line? = (run.ledger j).line? ∨
      ∃ n roll, (run.ledger j).Takes (run.ledger (j + 1)) n roll := by
  cases run.pace j with
  | opening _ _ hline _ _ _ htable' _ =>
    left
    exact ⟨hline, by rw [Ledger.epoch_of_load htable']; rfl⟩
  | drawing _ _ _ _ _ _ _ hline _ =>
    right; left
    exact hline
  | playing _ _ hline _ =>
    right
    exact hline

theorem Run.epoch_step (run : Run allowed Ledger.Outside) (j : Nat) :
    (run.ledger (j + 1)).epoch = (run.ledger j).epoch ∨
      (run.ledger (j + 1)).epoch = (run.ledger j).epoch + 1 := by
  rcases run.line_step j with ⟨hnone, hzero⟩ | hsame | ⟨n, roll, htake⟩
  · left
    unfold Ledger.epoch at hzero ⊢
    rw [hzero, hnone]
    rfl
  · left
    exact Ledger.epoch_of_line hsame
  · right
    obtain ⟨hbefore, hafter⟩ := htake.epoch
    omega

/-- Every round up to the last was taken at one moment, and at no other. -/
theorem Run.existsUnique_takes (run : Run allowed Ledger.Outside) (hpos : 1 ≤ n)
    (hle : n ≤ (run.ledger k).epoch) :
    ∃! j, j < k ∧ ∃ roll, (run.ledger j).Takes (run.ledger (j + 1)) n roll := by
  have hzero : (run.ledger 0).epoch = 0 := by
    rw [Run.ledger_zero]
    rfl
  obtain ⟨j, ⟨hj, hbefore, hafter⟩, hunique⟩ :=
    existsUnique_rise (f := fun j => (run.ledger j).epoch) hzero run.epoch_step hpos hle
  refine ⟨j, ⟨hj, ?_⟩, ?_⟩
  · rcases run.line_step j with ⟨-, hzero⟩ | hsame | ⟨n', roll, htake⟩
    · omega
    · have hepoch := Ledger.epoch_of_line hsame
      omega
    · obtain rfl : n' = n := htake.epoch.2.symm.trans hafter
      exact ⟨roll, htake⟩
  · rintro i ⟨hi, roll, htake⟩
    exact hunique i ⟨hi, htake.epoch⟩

theorem Run.epoch_mono (run : Run allowed Ledger.Outside) :
    Monotone fun j => (run.ledger j).epoch := by
  refine monotone_nat_of_le_succ fun j => ?_
  rcases run.epoch_step j with hsame | hrise
  · exact hsame.ge
  · rw [hrise]
    exact Nat.le_succ _

/-- In every run and at each of its moments: the table took the roll of every round up to its last
at exactly one moment and changed its line at no other, and it took no rolls but those that the
rounds were resolved with. Its line is what these rolls make of a come-out, and the phase before a
round is known if the round is one of the last `logLength`. -/
theorem line_follows_rolls (run : Run allowed Ledger.Outside) (k : Nat)
    (ht : (run.ledger k).load .table .table = .ok t) :
    ∃ rolls : List Roll,
      rolls.length = t.epoch ∧ (run.ledger k).Rolled rolls ∧
      (∀ n, 1 ≤ n → n ≤ t.epoch →
        ∃! j, j < k ∧ ∃ roll, (run.ledger j).Takes (run.ledger (j + 1)) n roll) ∧
      (∀ j < k, ∀ n roll, (run.ledger j).Takes (run.ledger (j + 1)) n roll →
        1 ≤ n ∧ n ≤ t.epoch ∧ rolls[n - 1]? = some roll) ∧
      (∀ j < k, ∀ line line', (run.ledger j).line? = some line →
        (run.ledger (j + 1)).line? = some line' → line' = line ∨
          ∃ n roll, (run.ledger j).Takes (run.ledger (j + 1)) n roll) ∧
      t.phase = .ok (Phase.comeOut.along rolls) ∧
      t.point = (Phase.comeOut.along rolls).toPoint ∧
      t.comeOutFlag = (if (Phase.comeOut.along rolls).isComeOut then 1 else 0) ∧
      (t.lastDie1, t.lastDie2) = Roll.lastDice rolls ∧
      t.shooterRolls = Call.sinceSevenOut (Phase.comeOut.calls rolls) ∧
      (t.point = 0 ↔ t.comeOutFlag = 1) ∧ t.point ∈ [0, 4, 5, 6, 8, 9, 10] ∧
      ∀ n phase, t.phaseBefore n = .ok phase ↔ 1 ≤ n ∧ n ≤ t.epoch ∧ t.epoch - n < 64 ∧
        phase = Phase.comeOut.along (rolls.take (n - 1)) := by
  obtain ⟨current, rolls, hu⟩ := (run.inStep k).underway ht
  have hf := hu.follows
  have hepoch : (run.ledger k).epoch = t.epoch := Ledger.epoch_of_load ht
  refine ⟨rolls, hf.epoch.symm, hu.rolled, fun n hpos hle => ?_, fun j hj n roll htake => ?_,
    fun j hj line line' hl hl' => ?_, hf.phase_eq, hf.point, hf.flag, hf.dice, hf.shooter, ?_, ?_,
    fun n phase => ?_⟩
  · exact run.existsUnique_takes hpos (hepoch ▸ hle)
  · -- what was taken stays resolved, so it is the roll that the line follows
    obtain ⟨hbefore, hafter⟩ := htake.epoch
    have hle : n ≤ t.epoch := by
      rw [← hafter, ← hepoch]
      exact run.epoch_mono hj
    have hlt : n - 1 < rolls.length := by
      rw [← hf.epoch]
      omega
    refine ⟨by omega, hle, ?_⟩
    have hkept : (run.ledger k).Resolved n roll := run.resolved_mono hj.le htake.resolved
    have hown := hu.rolled (n - 1) _ (List.getElem?_eq_getElem hlt)
    rw [Nat.sub_add_cancel (by omega)] at hown
    rw [List.getElem?_eq_getElem hlt, hown.unique hkept]
  · rcases run.line_step j with ⟨hnone, -⟩ | hsame | htake
    · rw [hnone] at hl
      cases hl
    · left
      rw [hl, hl'] at hsame
      exact Option.some.inj hsame
    · right
      exact htake
  · rw [hf.point, hf.flag, Phase.toPoint_eq_zero_iff hf.valid]
    cases (Phase.comeOut.along rolls).isComeOut <;> simp
  · rw [hf.point]
    exact Phase.toPoint_mem hf.valid
  · rw [hf.phaseBefore_eq_ok_iff, hf.epoch]

/-- After 65 rolls the log has forgotten the phase before the first, and still knows the second and
the 49th, which sevens out and lets the 50th come out again. -/
theorem line_follows_rolls_longAbsence :
    ∃ t, (longAbsence.ledger 135).load .table .table = .ok t ∧ t.epoch = 65 ∧
      t.point = 8 ∧ t.comeOutFlag = 0 ∧ (t.lastDie1, t.lastDie2) = (3, 6) ∧ t.shooterRolls = 16 ∧
      (∀ phase, t.phaseBefore 1 ≠ .ok phase) ∧ t.phaseBefore 2 = .ok (.point 8) ∧
      t.phaseBefore 49 = .ok (.point 6) ∧ t.phaseBefore 50 = .ok .comeOut ∧
      ∃! j, j < 135 ∧
        ∃ roll, (longAbsence.ledger j).Takes (longAbsence.ledger (j + 1)) 49 roll := by
  obtain ⟨-, hlines, hsquares, -⟩ := longAbsence_moments
  have hline := (List.cons.inj (List.cons.inj hlines).2).1
  obtain ⟨line, hline, hepoch⟩ := Option.map_eq_some_iff.mp hline
  obtain ⟨t, ht, rfl⟩ := Ledger.load_of_line? hline
  have hepoch : t.epoch = 65 := hepoch
  obtain ⟨rolls, hlength, hrolled, honce, -, -, -, hpoint, hflag, hdice, hshooter, -, -, hlog⟩ :=
    line_follows_rolls longAbsence 135 ht
  obtain rfl : rolls = landed.map Roll.ofSquare :=
    hrolled.unique (Ledger.rolled_of_squares hsquares) (hlength.trans hepoch)
  refine ⟨t, ht, hepoch, hpoint.trans (by decide), hflag.trans (by decide),
    hdice.trans (by decide), hshooter.trans (by decide), fun phase hphase => ?_, ?_, ?_, ?_,
    honce 49 (by decide) (hepoch ▸ by decide)⟩
  · obtain ⟨-, -, hwindow, -⟩ := (hlog 1 phase).mp hphase
    omega
  all_goals
    rw [hlog, hepoch]
    decide

end House

end DiceHouse
