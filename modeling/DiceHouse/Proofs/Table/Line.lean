import DiceHouse.Proofs.Sums
import DiceHouse.Proofs.Table

/-!
# The line and its history

The line of a table is what rolls change: the phase with its flag, the last dice, the shooter's
rolls, the log and the round of the last roll. `Table.Follows` says that the line is what a list of
rolls makes of a come-out. The list has no bound, but the log has: of the phases before each roll it
keeps those of the last `logLength` rounds, a round at its number modulo that length, so a new entry
falls on the one that has just left the window. From this, `phaseBefore` answers for the rounds in
the window and for no others, and what a seat may be settled against is known.

Bookings leave the line alone, so whatever follows a list of rolls goes on following it.
-/

namespace DiceHouse

namespace Phase

/-- The phase that rolls lead to. -/
def along (phase : Phase) (rolls : List Roll) : Phase :=
  rolls.foldl (fun p roll => (p.step roll.sum).1) phase

/-- The calls that rolls make, in order. -/
def calls (phase : Phase) : List Roll → List Call
  | [] => []
  | roll :: rolls => (phase.step roll.sum).2 :: (phase.step roll.sum).1.calls rolls

variable {phase : Phase} {rolls : List Roll} {roll : Roll}

theorem along_concat : phase.along (rolls ++ [roll]) = ((phase.along rolls).step roll.sum).1 := by
  simp [along]

theorem calls_concat : phase.calls (rolls ++ [roll])
    = phase.calls rolls ++ [((phase.along rolls).step roll.sum).2] := by
  induction rolls generalizing phase with
  | nil => rfl
  | cons first rolls ih => exact congrArg ((phase.step first.sum).2 :: ·) ih

theorem length_calls : (phase.calls rolls).length = rolls.length := by
  induction rolls generalizing phase with
  | nil => rfl
  | cons first rolls ih => exact congrArg (· + 1) ih

/-- Rolls of two dice keep the line in a phase it can be in. -/
theorem valid_along (h : phase.Valid)
    (hrolls : ∀ roll ∈ rolls, ∃ square, roll = Roll.ofSquare square) :
    (phase.along rolls).Valid := by
  induction rolls generalizing phase with
  | nil => exact h
  | cons first rolls ih =>
    obtain ⟨square, rfl⟩ := hrolls first List.mem_cons_self
    obtain ⟨lo, hi⟩ := Roll.sum_ofSquare_range square
    exact ih (valid_step h lo hi) fun roll hr => hrolls roll (List.mem_cons_of_mem _ hr)

theorem toPoint_eq_zero_iff (h : phase.Valid) : phase.toPoint = 0 ↔ phase.isComeOut = true := by
  cases phase with
  | comeOut => exact iff_of_true rfl rfl
  | point n =>
    have hn : n ≠ 0 := by
      rintro rfl
      simp [Valid, Dice.pointIndex?] at h
    exact iff_of_false hn Bool.false_ne_true

theorem toPoint_mem (h : phase.Valid) : phase.toPoint ∈ [0, 4, 5, 6, 8, 9, 10] := by
  cases phase with
  | comeOut => exact List.mem_cons_self
  | point n =>
    obtain ⟨i, hi⟩ := Option.isSome_iff_exists.mp h
    obtain rfl : Dice.pointNumbers[i] = n := Dice.pointIndex?_eq_some_iff.mp hi
    clear h hi
    revert i
    decide

end Phase

/-- How many calls came after the last seven-out. -/
def Call.sinceSevenOut (calls : List Call) : Nat :=
  (calls.reverse.takeWhile (· ≠ .sevenOut)).length

theorem Call.sinceSevenOut_concat (calls : List Call) (call : Call) :
    sinceSevenOut (calls ++ [call]) = if call = .sevenOut then 0 else sinceSevenOut calls + 1 := by
  unfold sinceSevenOut
  rw [List.reverse_concat]
  split
  · next h => simp [h]
  · next h => simp [h]

theorem Call.sinceSevenOut_le (calls : List Call) : sinceSevenOut calls ≤ calls.length := by
  unfold sinceSevenOut
  refine (List.takeWhile_prefix _).length_le.trans ?_
  rw [List.length_reverse]

/-- The dice of the last of some rolls, or no pips before any. -/
def Roll.lastDice (rolls : List Roll) : Nat × Nat :=
  match rolls.getLast? with
  | some roll => (roll.die1, roll.die2)
  | none => (0, 0)

/-- What of a table the rolls change. -/
structure Line where
  epoch : Nat
  point : Nat
  comeOutFlag : Nat
  lastDie1 : Nat
  lastDie2 : Nat
  phaseLog : Vector Nat 64
  shooterRolls : Nat
  deriving DecidableEq, Repr

namespace Table

/-- The line of a table. -/
def line (t : Table) : Line where
  epoch := t.epoch
  point := t.point
  comeOutFlag := t.comeOutFlag
  lastDie1 := t.lastDie1
  lastDie2 := t.lastDie2
  phaseLog := t.phaseLog
  shooterRolls := t.shooterRolls

/-- The line is what the rolls of rounds 1, 2, 3, … in order made of a come-out. -/
structure Follows (t : Table) (rolls : List Roll) : Prop where
  squares : ∀ roll ∈ rolls, ∃ square, roll = Roll.ofSquare square
  epoch : t.epoch = rolls.length
  fits : rolls.length < Amount.limit
  point : t.point = (Phase.comeOut.along rolls).toPoint
  flag : t.comeOutFlag = if (Phase.comeOut.along rolls).isComeOut then 1 else 0
  dice : (t.lastDie1, t.lastDie2) = Roll.lastDice rolls
  shooter : t.shooterRolls = Call.sinceSevenOut (Phase.comeOut.calls rolls)
  log : ∀ n < rolls.length, rolls.length ≤ n + logLength →
    t.phaseLog.get (logIndex (n + 1)) = (Phase.comeOut.along (rolls.take n)).toPoint

variable {t t' : Table} {rolls : List Roll} {roll : Roll} {call : Call} {n : Nat}

theorem Follows.congr (h : t.Follows rolls) (hline : t'.line = t.line) : t'.Follows rolls := by
  simp only [line, Line.mk.injEq] at hline
  obtain ⟨he, hp, hf, h₁, h₂, hl, hs⟩ := hline
  exact ⟨h.squares, he.trans h.epoch, h.fits, hp.trans h.point, hf.trans h.flag,
    by rw [h₁, h₂, h.dice], hs.trans h.shooter, hl ▸ h.log⟩

theorem follows_fresh : (blank.setPhase .comeOut).Follows [] where
  squares _ h := absurd h List.not_mem_nil
  epoch := rfl
  fits := Nat.pow_pos (by decide)
  point := rfl
  flag := rfl
  dice := rfl
  shooter := rfl
  log _ h := absurd h (Nat.not_lt_zero _)

theorem Follows.valid (h : t.Follows rolls) : (Phase.comeOut.along rolls).Valid :=
  Phase.valid_along trivial h.squares

theorem Follows.valid_take (h : t.Follows rolls) (n : Nat) :
    (Phase.comeOut.along (rolls.take n)).Valid :=
  Phase.valid_along trivial fun roll hr => h.squares roll (List.mem_of_mem_take hr)

theorem Follows.phase_eq (h : t.Follows rolls) : t.phase = .ok (Phase.comeOut.along rolls) := by
  unfold Table.phase
  rw [h.point]
  exact Phase.ofPoint_toPoint h.valid

/-! ## Bookings -/

theorem line_reserve {stake worst : Nat} (h : t.reserve stake worst = .ok t') :
    t'.line = t.line := by
  unfold reserve at h
  simp only [bind_eq_ok_iff, pure_eq_ok_iff] at h
  obtain ⟨-, -, -, -, -, -, rfl⟩ := h
  rfl

theorem line_book {profit collected released : Nat}
    (h : t.book profit collected released = .ok t') : t'.line = t.line := by
  unfold book at h
  simp only [bind_eq_ok_iff, pure_eq_ok_iff] at h
  obtain ⟨-, -, -, -, -, -, -, -, -, -, rfl⟩ := h
  rfl

theorem line_fund {amount : Nat} (h : t.fund amount = .ok t') : t'.line = t.line := by
  unfold fund at h
  simp only [bind_eq_ok_iff, pure_eq_ok_iff] at h
  obtain ⟨-, -, rfl⟩ := h
  rfl

/-! ## Rolls -/

/-- What the table is after it took the roll of a round. -/
def rolled (t : Table) (n : Nat) (roll : Roll) (before : Phase) : Table :=
  setPhase
    { t with
      phaseLog := t.phaseLog.set (logIndex n) before.toPoint (logIndex n).isLt
      epoch := n
      lastDie1 := roll.die1
      lastDie2 := roll.die2
      shooterRolls :=
        if (before.step roll.sum).2 = .sevenOut then 0 else Amount.addSaturating t.shooterRolls 1
      version := Amount.addWrapping t.version 1 }
    (before.step roll.sum).1

theorem applyRoll_eq_ok_iff {q : Table × Call} :
    t.applyRoll n roll = .ok q ↔ n = t.epoch + 1 ∧ n < Amount.limit ∧
      ∃ before, t.phase = .ok before ∧ q = (t.rolled n roll before, (before.step roll.sum).2) := by
  unfold applyRoll
  simp only [bind_eq_ok_iff, require_eq_ok_iff, exists_const, Amount.add_eq_ok_iff, pure_eq_ok_iff]
  constructor
  · rintro ⟨next, ⟨hlt, rfl⟩, rfl, before, hbefore, rfl⟩
    exact ⟨rfl, hlt, before, hbefore, rfl⟩
  · rintro ⟨rfl, hlt, before, hbefore, rfl⟩
    exact ⟨t.epoch + 1, ⟨hlt, rfl⟩, rfl, before, hbefore, rfl⟩

/-- Different rounds within one window of the log are kept at different places. -/
theorem logIndex_ne {m n : Nat} (hlt : m < n) (hle : n < m + logLength) :
    logIndex m ≠ logIndex n := by
  intro hc
  have hmod : m % logLength = n % logLength := congrArg Fin.val hc
  unfold logLength at hle hmod
  omega

/-- After a roll the line follows one more roll: the entry that is written takes the place of the
one that leaves the window, and all others stay. -/
theorem Follows.rolled (h : t.Follows rolls) (hroll : ∃ square, roll = Roll.ofSquare square)
    (hlt : rolls.length + 1 < Amount.limit) :
    (t.rolled (rolls.length + 1) roll (Phase.comeOut.along rolls)).Follows (rolls ++ [roll]) := by
  have hcalls : (Phase.comeOut.calls rolls).length = rolls.length := Phase.length_calls
  have hsince := Call.sinceSevenOut_le (Phase.comeOut.calls rolls)
  refine ⟨fun r hr => ?_, ?_, ?_, ?_, ?_, ?_, ?_, fun n hn hwindow => ?_⟩
  · rcases List.mem_append.mp hr with hold | hnew
    · exact h.squares r hold
    · rw [List.mem_singleton.mp hnew]
      exact hroll
  · rw [List.length_append]
    rfl
  · rw [List.length_append]
    exact hlt
  · rw [Phase.along_concat]
    rfl
  · rw [Phase.along_concat]
    rfl
  · unfold Roll.lastDice
    rw [List.getLast?_concat]
    rfl
  · -- the count is at most that of the rolls, so it never reaches the greatest amount
    rw [Phase.calls_concat, Call.sinceSevenOut_concat, ← h.shooter]
    show (if _ then 0 else Amount.addSaturating t.shooterRolls 1) = _
    refine if_congr Iff.rfl rfl ?_
    have hshooter := h.shooter
    unfold Amount.addSaturating
    refine Nat.min_eq_left ?_
    simp only [Amount.greatest]
    omega
  · rw [List.length_append, List.length_singleton] at hn hwindow
    show (t.phaseLog.set (logIndex (rolls.length + 1)) _ (logIndex _).isLt).get _ = _
    rw [get_set]
    rcases Nat.lt_or_eq_of_le (Nat.lt_succ_iff.mp hn) with hlt' | rfl
    · have hne : logIndex (n + 1) ≠ logIndex (rolls.length + 1) :=
        logIndex_ne (by omega) (by omega)
      rw [if_neg hne, List.take_append_of_le_length (by omega)]
      exact h.log n hlt' (by omega)
    · rw [if_pos rfl, List.take_left]

/-- The roll that a line takes is that of the next round, and it takes any. -/
theorem Follows.applyRoll_eq_ok_iff (h : t.Follows rolls) {q : Table × Call} :
    t.applyRoll n roll = .ok q ↔ n = rolls.length + 1 ∧ n < Amount.limit ∧
      q = (t.rolled n roll (Phase.comeOut.along rolls),
        ((Phase.comeOut.along rolls).step roll.sum).2) := by
  rw [Table.applyRoll_eq_ok_iff, h.epoch, h.phase_eq]
  constructor
  · rintro ⟨hn, hlt, before, hbefore, hq⟩
    cases hbefore
    exact ⟨hn, hlt, hq⟩
  · rintro ⟨hn, hlt, hq⟩
    exact ⟨hn, hlt, _, rfl, hq⟩

theorem Follows.applyRoll (h : t.Follows rolls) (hroll : ∃ square, roll = Roll.ofSquare square)
    (htake : t.applyRoll n roll = .ok (t', call)) :
    n = rolls.length + 1 ∧ t'.Follows (rolls ++ [roll]) := by
  obtain ⟨rfl, hlt, hq⟩ := h.applyRoll_eq_ok_iff.mp htake
  cases hq
  exact ⟨rfl, h.rolled hroll hlt⟩

/-- A table takes the roll of a round that it does not have, and no other. -/
theorem catchUp_eq_ok_iff {q : Table × Option Call} :
    t.catchUp n roll = .ok q ↔ n ≤ t.epoch ∧ q = (t, none) ∨
      ∃ t' call, t.applyRoll n roll = .ok (t', call) ∧ q = (t', some call) := by
  unfold catchUp
  split
  · next hle =>
    rw [pure_eq_ok_iff]
    constructor
    · rintro rfl
      exact .inl ⟨hle, rfl⟩
    · rintro (⟨-, rfl⟩ | ⟨t', call, htake, -⟩)
      · rfl
      · have hn := (Table.applyRoll_eq_ok_iff.mp htake).1
        omega
  · next hgt =>
    simp only [bind_eq_ok_iff, pure_eq_ok_iff, Prod.exists]
    constructor
    · rintro ⟨t', call, htake, rfl⟩
      exact .inr ⟨t', call, htake, rfl⟩
    · rintro (⟨hle, -⟩ | ⟨t', call, htake, rfl⟩)
      · exact absurd hle hgt
      · exact ⟨t', call, htake, rfl⟩

/-- A table that follows the rolls of all earlier rounds catches up with a round. -/
theorem Follows.catchUp {q : Table × Option Call} (h : t.Follows rolls)
    (hroll : ∃ square, roll = Roll.ofSquare square) (hcatch : t.catchUp n roll = .ok q) :
    n ≤ rolls.length ∧ q.1 = t ∨ n = rolls.length + 1 ∧ q.1.Follows (rolls ++ [roll]) := by
  rcases catchUp_eq_ok_iff.mp hcatch with ⟨hle, rfl⟩ | ⟨t', call, htake, rfl⟩
  · exact .inl ⟨h.epoch ▸ hle, rfl⟩
  · exact .inr (h.applyRoll hroll htake)

/-! ## The log -/

/-- The log answers for the rounds in its window and for no others. -/
theorem Follows.phaseBefore_eq_ok_iff (h : t.Follows rolls) {phase : Phase} :
    t.phaseBefore n = .ok phase ↔ 1 ≤ n ∧ n ≤ rolls.length ∧ rolls.length - n < logLength ∧
      phase = Phase.comeOut.along (rolls.take (n - 1)) := by
  unfold phaseBefore
  simp only [bind_eq_ok_iff, require_eq_ok_iff, exists_const, h.epoch]
  constructor
  · rintro ⟨⟨hpos, hle, hwindow⟩, hphase⟩
    have hentry := h.log (n - 1) (by omega) (by omega)
    rw [Nat.sub_add_cancel (Nat.one_le_iff_ne_zero.mpr hpos)] at hentry
    have hread : Phase.ofPoint (t.phaseLog.get (logIndex n)) = .ok phase := hphase
    rw [hentry, Phase.ofPoint_toPoint (h.valid_take _)] at hread
    exact ⟨Nat.one_le_iff_ne_zero.mpr hpos, hle, hwindow, (Except.ok.inj hread).symm⟩
  · rintro ⟨hpos, hle, hwindow, rfl⟩
    have hentry := h.log (n - 1) (by omega) (by omega)
    rw [Nat.sub_add_cancel hpos] at hentry
    refine ⟨⟨Nat.one_le_iff_ne_zero.mp hpos, hle, hwindow⟩, ?_⟩
    show Phase.ofPoint (t.phaseLog.get (logIndex n)) = _
    rw [hentry]
    exact Phase.ofPoint_toPoint (h.valid_take _)

/-- A seat with wagers that ride takes the round after its own, if the log still has it, and is
judged in the phase before that round's roll. -/
theorem Follows.turn_riding_eq_ok_iff (h : t.Follows rolls) {epoch : Nat} {way : Turn} :
    t.turn epoch true n = .ok way ↔ n = epoch + 1 ∧ n ≤ rolls.length ∧
      rolls.length - n < logLength ∧
      way = .settle (Phase.comeOut.along (rolls.take epoch)) := by
  unfold turn
  simp only [bind_eq_ok_iff, require_eq_ok_iff, exists_const, h.epoch]
  constructor
  · rintro ⟨hle, hne, hturn⟩
    split at hturn
    · next hnext =>
      simp only [bind_eq_ok_iff, h.phaseBefore_eq_ok_iff, pure_eq_ok_iff] at hturn
      obtain ⟨phase, ⟨-, -, hwindow, rfl⟩, rfl⟩ := hturn
      subst hnext
      exact ⟨rfl, hle, hwindow, rfl⟩
    · simp only [bind_eq_ok_iff, require_eq_ok_iff, not_true_eq_false, false_and,
        exists_false] at hturn
  · rintro ⟨rfl, hle, hwindow, rfl⟩
    refine ⟨hle, (Nat.lt_succ_self epoch).ne, ?_⟩
    rw [if_pos rfl]
    simp only [bind_eq_ok_iff, h.phaseBefore_eq_ok_iff, pure_eq_ok_iff]
    exact ⟨_, ⟨Nat.succ_pos epoch, hle, hwindow, rfl⟩, rfl⟩

/-- A seat that waits for a round that the table has, or takes next, gets its turn if the log still
has the round. -/
theorem Follows.turn_of_catchUp (h : t.Follows rolls)
    (hroll : ∃ square, roll = Roll.ofSquare square) {epoch : Nat} (hle : epoch ≤ rolls.length)
    (hwindow : rolls.length - epoch ≤ logLength) (hfits : epoch + 1 < Amount.limit) :
    ∃ rolled, t.catchUp (epoch + 1) roll = .ok rolled ∧
      rolled.1.turn epoch true (epoch + 1)
        = .ok (.settle (Phase.comeOut.along (rolls.take epoch))) := by
  rcases Nat.lt_or_eq_of_le hle with hlt | rfl
  · refine ⟨(t, none), catchUp_eq_ok_iff.mpr (.inl ⟨h.epoch ▸ hlt, rfl⟩), ?_⟩
    exact h.turn_riding_eq_ok_iff.mpr ⟨rfl, hlt, by omega, rfl⟩
  · have htake : t.applyRoll (rolls.length + 1) roll
        = .ok (t.rolled (rolls.length + 1) roll (Phase.comeOut.along rolls),
          ((Phase.comeOut.along rolls).step roll.sum).2) :=
      h.applyRoll_eq_ok_iff.mpr ⟨rfl, hfits, rfl⟩
    have hrolled := h.rolled hroll hfits
    have hlength : (rolls ++ [roll]).length = rolls.length + 1 := List.length_append
    refine ⟨_, catchUp_eq_ok_iff.mpr (.inr ⟨_, _, htake, rfl⟩), ?_⟩
    refine hrolled.turn_riding_eq_ok_iff.mpr ⟨rfl, hlength.ge, ?_, ?_⟩
    · rw [hlength, Nat.sub_self]
      exact Nat.zero_lt_succ _
    · rw [List.take_left, List.take_length]

end Table

end DiceHouse
