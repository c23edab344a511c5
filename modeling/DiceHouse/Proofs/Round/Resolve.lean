import DiceHouse.Proofs.Round.Stake
import DiceHouse.Round.Resolve

/-!
# What a resolution makes of a round

A resolved round keeps its books and gets a winning square. `Round.Drawn` says that nothing of the
pool is lost on the way: with stake on the square it is that stake, the winnings, the jackpot and
the fee; without, it is what was burned or handed on.
-/

namespace DiceHouse

namespace Draw

theorem jackpot_lt {seed : Bytes32} {round staked unit : Nat}
    (h : jackpot seed round staked = .ok unit) (hstaked : staked ≠ 0) : unit < staked := by
  unfold jackpot at h
  rw [if_neg hstaked] at h
  exact drawWithin_lt (Nat.pos_of_ne_zero hstaked) h

end Draw

namespace Round

variable {κ ν : Type} {r r' : Round κ} {split : Split} {tickets : Multiset (Ticket ν)}

/-- A granted resolution on which this square wins. -/
structure Drawn (r r' : Round κ) (split : Split) (square : Square) : Prop where
  open_before : r.winner = none
  winner : r'.winner = some square.val
  id : r'.id = r.id
  staked : r'.staked = r.staked
  predicted : r'.predicted = r.predicted
  carryIn : r'.carryIn = r.carryIn
  totalStaked : r'.totalStaked = r.totalStaked
  totalClaimed : r'.totalClaimed = r.totalClaimed
  vaulted : r'.totalVaulted = split.fee + split.burned
  /-- Nobody wins. -/
  empty : r.staked.get square = 0 → split.fee = 0 ∧
    split.burned + split.carried = r.totalStaked + r.carryIn
  /-- Somebody wins. -/
  won : r.staked.get square ≠ 0 → split.burned = 0 ∧ split.carried = 0 ∧
    r'.jackpotUnit < r.staked.get square ∧
    r.staked.get square + r'.winnings + r'.jackpot + split.fee = r.totalStaked + r.carryIn

theorem resolve_ok {seed : Bytes32} {settings : Settings ν} {resolved : Round κ × Split}
    (h : r.resolve seed settings = .ok resolved) :
    ∃ square, Drawn r resolved.1 resolved.2 square := by
  unfold resolve at h
  simp only [bind_eq_ok_iff, require_eq_ok_iff, exists_const, Amount.sub_eq_ok_iff,
    Amount.add_eq_ok_iff] at h
  obtain ⟨hopen, square, -, losing, ⟨hle, rfl⟩, pool, ⟨-, rfl⟩, h⟩ := h
  have hopen : r.winner = none := by simpa [isResolved] using hopen
  refine ⟨square, ?_⟩
  split at h
  · next hzero =>
    rw [pure_eq_ok_iff] at h
    subst h
    refine ⟨hopen, rfl, rfl, rfl, rfl, rfl, rfl, rfl, ?_, fun _ => ?_, fun hne => absurd hzero hne⟩
    · cases settings.emptyPool <;> simp
    · cases settings.emptyPool <;> simp [hzero]
  · next hne =>
    simp only [bind_eq_ok_iff, Amount.sub_eq_ok_iff, pure_eq_ok_iff] at h
    obtain ⟨fee, -, jackpot, -, afterFee, ⟨hfee, rfl⟩, winnings, ⟨hjackpot, rfl⟩, unit, hunit,
      rfl⟩ := h
    refine ⟨hopen, rfl, rfl, rfl, rfl, rfl, rfl, rfl, rfl, fun hzero => absurd hzero hne,
      fun _ => ⟨rfl, rfl, Draw.jackpot_lt hunit hne, ?_⟩⟩
    dsimp only
    omega

/-- What a resolution comes to where somebody wins, once it is told what the draws say. -/
theorem resolve_of_draws {seed : Bytes32} {settings : Settings ν} {square : Square} {unit : Nat}
    (hsquare : Draw.square seed r.id = .ok square)
    (hunit : Draw.jackpot seed r.id (r.staked.get square) = .ok unit)
    (hstaked : r.staked.get square ≠ 0) :
    r.resolve seed settings = (do
      require (¬r.isResolved) .alreadyResolved
      let losing ← Amount.sub r.totalStaked (r.staked.get square)
      let pool ← Amount.add losing r.carryIn
      let fee ← cut losing settings.feeBps
      let jackpot ← cut losing settings.jackpotBps
      let winnings ← Amount.sub (← Amount.sub pool fee) jackpot
      return ({ r with
        seed
        winner := some square.val
        die1 := (Roll.ofSquare square).die1
        die2 := (Roll.ofSquare square).die2
        bonusBps := settings.bonusBps
        jackpot
        winnings
        jackpotUnit := unit
        totalVaulted := fee }, { fee })) := by
  unfold resolve
  simp only [hsquare, ok_bind, if_neg hstaked, hunit]
  rfl

theorem Drawn.isResolved {square : Square} (h : Drawn r r' split square) :
    r'.isResolved = true := by
  rw [Round.isResolved, h.winner, Option.isSome_some]

/-- A draw writes its seed to the round and leaves the expiry as it was. -/
theorem seed_expiresAt_of_resolve {seed : Bytes32} {settings : Settings ν}
    {resolved : Round κ × Split} (h : r.resolve seed settings = .ok resolved) :
    resolved.1.seed = seed ∧ resolved.1.expiresAt = r.expiresAt := by
  unfold resolve at h
  simp only [bind_eq_ok_iff] at h
  obtain ⟨-, -, square, -, losing, -, pool, -, h⟩ := h
  split at h
  · rw [pure_eq_ok_iff] at h
    subst h
    exact ⟨rfl, rfl⟩
  · simp only [bind_eq_ok_iff, pure_eq_ok_iff] at h
    obtain ⟨-, -, -, -, -, -, -, -, -, -, rfl⟩ := h
    exact ⟨rfl, rfl⟩

/-- A round keeps the seed that it was resolved with. -/
theorem seed_of_resolve {seed : Bytes32} {settings : Settings ν} {resolved : Round κ × Split}
    (h : r.resolve seed settings = .ok resolved) : resolved.1.seed = seed :=
  (seed_expiresAt_of_resolve h).1

/-- The whole pool is handed on if nobody staked on the square and the settings say so, and nothing
otherwise. -/
theorem carried_of_resolve {seed : Bytes32} {settings : Settings ν} {resolved : Round κ × Split}
    {square : Square} (h : r.resolve seed settings = .ok resolved)
    (hwinner : resolved.1.winner = some square.val) :
    resolved.2.carried = if r.staked.get square = 0 ∧ settings.emptyPool = .carry then
      r.totalStaked + r.carryIn else 0 := by
  unfold resolve at h
  simp only [bind_eq_ok_iff, require_eq_ok_iff, exists_const, Amount.sub_eq_ok_iff,
    Amount.add_eq_ok_iff] at h
  obtain ⟨-, drawn, -, losing, ⟨-, rfl⟩, pool, ⟨-, rfl⟩, h⟩ := h
  split at h
  · next hzero =>
    rw [pure_eq_ok_iff] at h
    subst h
    obtain rfl : drawn = square := Fin.ext (Option.some.inj hwinner)
    cases settings.emptyPool <;> simp [hzero]
  · next hne =>
    simp only [bind_eq_ok_iff, pure_eq_ok_iff] at h
    obtain ⟨_, -, _, -, _, -, _, -, _, -, rfl⟩ := h
    obtain rfl : drawn = square := Fin.ext (Option.some.inj hwinner)
    rw [if_neg fun hc => hne hc.1]

/-- Rounds that keep the same books sold the same tickets. -/
theorem Sold.congr (h : Sold r tickets) (hstaked : r'.staked = r.staked)
    (hpredicted : r'.predicted = r.predicted) (htotal : r'.totalStaked = r.totalStaked) :
    Sold r' tickets := by
  constructor
  case staked =>
    rw [hstaked]
    exact h.staked
  case predicted =>
    rw [hpredicted]
    exact h.predicted
  case covered =>
    rw [hstaked]
    exact h.covered
  case total =>
    rw [htotal, hstaked]
    exact h.total
  case totals => exact h.totals

end Round

end DiceHouse
