import DiceHouse.Proofs.Draw
import DiceHouse.Proofs.Round.Pool

/-!
# How a resolution splits the pool

The fee and the jackpot are two rates of the losing stake, each rounded down on its own, and both
are subtracted from a pool that also holds what earlier rounds handed on. Under settings that may be
in force the rates make at most a whole, so together the two cuts stay within the losing stake and
neither subtraction can be refused. What is left to refuse a resolution are draws that give up and a
pool that is no amount.

The lemmas `resolve_of_*` say what a resolution comes to under each thing that the draws can say;
`splits_exactly` goes through all of these.
-/

namespace DiceHouse

/-! ## Draws that give up -/

namespace Draw

variable {hash : Bytes32 → Bytes32} {bound tries round staked : Nat} {digest seed : Bytes32}
  {fault : Fault}

/-- A draw is refused for want of tries only. -/
theorem drawWithin_error (h : drawWithin hash bound tries digest = .error fault) :
    fault = .drawExhausted :=
  (drawWithin_eq_error_iff.mp h).1

theorem square_error (h : square seed round = .error fault) : fault = .drawExhausted := by
  unfold square at h
  rcases bind_eq_error_iff.mp h with hdraw | ⟨n, -, hpure⟩
  · exact drawWithin_error hdraw
  · exact absurd hpure pure_ne_error

theorem jackpot_error (h : jackpot seed round staked = .error fault) : fault = .drawExhausted := by
  unfold jackpot at h
  split at h
  · cases h
  · exact drawWithin_error h

end Draw

/-! ## Settings in force -/

namespace Settings

variable {ν : Type} {settings new valid : Settings ν}

theorem validate_eq_ok_iff : new.validate = .ok valid ↔ new.Sound ∧ new = valid := by
  unfold validate
  simp only [bind_eq_ok_iff, require_eq_ok_iff, exists_const, pure_eq_ok_iff]

/-- Settings that a house can come to have: those that it opens with, and those that were accepted
in the place of others. -/
inductive InForce : Settings ν → Prop
  | initial (admin : ν) : InForce (Settings.initial admin)
  | update {current new valid : Settings ν} (h : InForce current)
    (haccepted : new.validate = .ok valid) : InForce valid

theorem InForce.sound (h : settings.InForce) : settings.Sound := by
  cases h with
  | initial admin => exact sound_initial admin
  | update _ haccepted =>
    obtain ⟨hsound, rfl⟩ := validate_eq_ok_iff.mp haccepted
    exact hsound

end Settings

namespace Round

variable {κ ν : Type} {r : Round κ} {square : Square} {seed : Bytes32} {settings : Settings ν}
  {fault : Fault}

/-! ## The cuts -/

/-- Two rates that make at most a whole are told of an amount, and take at most all of it, though
each is rounded down. -/
theorem cuts_ok {amount feeRate jackpotRate : Nat}
    (hrates : feeRate + jackpotRate ≤ Settings.wholeBps) (hamount : amount < Amount.limit) :
    ∃ fee jackpot, cut amount feeRate = .ok fee ∧ cut amount jackpotRate = .ok jackpot ∧
      fee + jackpot ≤ amount := by
  have hle : amount * feeRate / Settings.wholeBps + amount * jackpotRate / Settings.wholeBps
      ≤ amount := by
    calc amount * feeRate / Settings.wholeBps + amount * jackpotRate / Settings.wholeBps
        ≤ (amount * feeRate + amount * jackpotRate) / Settings.wholeBps :=
          Nat.div_add_div_le_add_div
      _ = amount * (feeRate + jackpotRate) / Settings.wholeBps := by rw [Nat.mul_add]
      _ ≤ amount * Settings.wholeBps / Settings.wholeBps :=
          Nat.div_le_div_right (Nat.mul_le_mul_left _ hrates)
      _ = amount := Nat.mul_div_cancel _ (by decide)
  refine ⟨_, _, Amount.fit_eq_ok_iff.mpr ⟨?_, rfl⟩, Amount.fit_eq_ok_iff.mpr ⟨?_, rfl⟩, hle⟩
  · exact (Nat.le_add_right _ _).trans_lt (hle.trans_lt hamount)
  · exact (Nat.le_add_left _ _).trans_lt (hle.trans_lt hamount)

/-- The stake that loses if this square wins. -/
def losing (r : Round κ) (square : Square) : Nat := r.totalStaked - r.staked.get square

/-- A square has no more than the whole stake, so there is a rest that loses. -/
theorem sub_losing (hbooks : r.totalStaked = ∑ square : Square, r.staked.get square)
    (square : Square) :
    Amount.sub r.totalStaked (r.staked.get square) = .ok (r.losing square) := by
  refine Amount.sub_eq_ok_iff.mpr ⟨?_, rfl⟩
  rw [hbooks]
  exact le_sum_map (fun square => r.staked.get square) (Finset.mem_univ_val square)

/-! ## What a resolution comes to -/

/-- A draw that the resolution needs gives up: that of the square or, where somebody wins, that of
the jackpot's unit. -/
def Undrawn (r : Round κ) (seed : Bytes32) : Prop :=
  Draw.square seed r.id = .error .drawExhausted ∨
    ∃ square, Draw.square seed r.id = .ok square ∧ r.losing square + r.carryIn < Amount.limit ∧
      r.staked.get square ≠ 0 ∧
      Draw.jackpot seed r.id (r.staked.get square) = .error .drawExhausted

/-- The pool is more than an amount. -/
def Overfull (r : Round κ) (seed : Bytes32) : Prop :=
  ∃ square, Draw.square seed r.id = .ok square ∧ Amount.limit ≤ r.losing square + r.carryIn

/-- Where the pool goes when this square wins. -/
structure Splits (r : Round κ) (settings : Settings ν) (square : Square) (round : Round κ)
    (split : Split) : Prop where
  winner : round.winner = some square.val
  /-- Somebody wins. -/
  won : 0 < r.staked.get square →
    r.staked.get square + round.winnings + round.jackpot + split.fee = r.totalStaked + r.carryIn ∧
      split.burned = 0 ∧ split.carried = 0 ∧ round.totalVaulted = split.fee ∧
      round.jackpotUnit < r.staked.get square
  /-- Nobody does, and the settings say what becomes of the pool. -/
  empty : r.staked.get square = 0 →
    split.fee = 0 ∧ round.jackpot = 0 ∧ round.winnings = 0 ∧
      match settings.emptyPool with
      | .carry => split.carried = r.totalStaked + r.carryIn ∧ split.burned = 0
      | .burn => split.burned = r.totalStaked + r.carryIn ∧ split.carried = 0

section Cases

variable (hopen : r.winner = none)
  (hbooks : r.totalStaked = ∑ square : Square, r.staked.get square)
include hopen

theorem resolve_of_undrawn_square (hdraw : Draw.square seed r.id = .error fault) :
    r.resolve seed settings = .error fault := by
  unfold resolve
  rw [require_of_true (by simp [isResolved, hopen]), ok_bind, hdraw, error_bind]

include hbooks

theorem resolve_of_overfull (h : r.Overfull seed) :
    r.resolve seed settings = .error .overflow := by
  obtain ⟨square, hdraw, hpool⟩ := h
  unfold resolve
  rw [require_of_true (by simp [isResolved, hopen]), ok_bind, hdraw, ok_bind, sub_losing hbooks,
    ok_bind, Amount.add_of_le hpool, error_bind]

section Drawn

variable (hdraw : Draw.square seed r.id = .ok square)
  (hpool : r.losing square + r.carryIn < Amount.limit)
include hdraw hpool

/-- Where nobody wins, the pool goes where the settings say. -/
theorem resolve_of_empty (hstaked : r.staked.get square = 0) :
    ∃ round split, r.resolve seed settings = .ok (round, split) ∧
      r.Splits settings square round split := by
  have hall : r.losing square = r.totalStaked := by
    unfold losing
    rw [hstaked, Nat.sub_zero]
  unfold resolve
  rw [require_of_true (by simp [isResolved, hopen]), ok_bind, hdraw, ok_bind, sub_losing hbooks,
    ok_bind, Amount.add_of_lt hpool, ok_bind, hall]
  dsimp only
  rw [if_pos hstaked]
  refine ⟨_, _, rfl, rfl, fun hpos => absurd hstaked (Nat.ne_of_gt hpos), fun _ => ?_⟩
  cases settings.emptyPool with
  | carry => exact ⟨rfl, rfl, rfl, rfl, rfl⟩
  | burn => exact ⟨rfl, rfl, rfl, rfl, rfl⟩

/-- Where somebody wins, no cut is refused; what is left is the draw of the jackpot's unit. -/
theorem resolve_of_staked (hsettings : settings.Sound) (hstaked : r.staked.get square ≠ 0) :
    (∀ fault, Draw.jackpot seed r.id (r.staked.get square) = .error fault →
      r.resolve seed settings = .error fault) ∧
    ∀ unit, Draw.jackpot seed r.id (r.staked.get square) = .ok unit →
      ∃ round split, r.resolve seed settings = .ok (round, split) ∧
        r.Splits settings square round split := by
  have hlost := sub_losing hbooks square
  obtain ⟨fee, jackpot, hfee, hjackpot, hcuts⟩ :=
    cuts_ok hsettings.1 ((Nat.le_add_right _ _).trans_lt hpool)
  have hafter : Amount.sub (r.losing square + r.carryIn) fee
      = .ok (r.losing square + r.carryIn - fee) :=
    Amount.sub_eq_ok_iff.mpr ⟨by omega, rfl⟩
  have hrest : Amount.sub (r.losing square + r.carryIn - fee) jackpot
      = .ok (r.losing square + r.carryIn - fee - jackpot) :=
    Amount.sub_eq_ok_iff.mpr ⟨by omega, rfl⟩
  unfold resolve
  rw [require_of_true (by simp [isResolved, hopen]), ok_bind, hdraw, ok_bind, hlost, ok_bind,
    Amount.add_of_lt hpool, ok_bind]
  dsimp only
  rw [if_neg hstaked, hfee, ok_bind, hjackpot, ok_bind, hafter, ok_bind, hrest, ok_bind]
  constructor
  · intro fault hunit
    rw [hunit, error_bind]
  · intro unit hunit
    rw [hunit, ok_bind]
    refine ⟨_, _, rfl, rfl, fun _ => ⟨?_, rfl, rfl, rfl, Draw.jackpot_lt hunit hstaked⟩,
      fun hzero => absurd hzero hstaked⟩
    obtain ⟨hle, hlosing⟩ := Amount.sub_eq_ok_iff.mp hlost
    dsimp only
    omega

end Drawn

theorem resolve_of_undrawn (hsettings : settings.Sound) (h : r.Undrawn seed) :
    r.resolve seed settings = .error .drawExhausted := by
  rcases h with hdraw | ⟨square, hdraw, hpool, hstaked, hunit⟩
  · exact resolve_of_undrawn_square hopen hdraw
  · exact (resolve_of_staked hopen hbooks hdraw hpool hsettings hstaked).1 _ hunit

/-- A resolution that no draw and no sum stands against is granted. -/
theorem resolve_cases (hsettings : settings.Sound) (seed : Bytes32) :
    r.Undrawn seed ∨ r.Overfull seed ∨
      ∃ square round split, Draw.square seed r.id = .ok square ∧
        r.resolve seed settings = .ok (round, split) ∧ r.Splits settings square round split := by
  cases hdraw : Draw.square seed r.id with
  | error fault =>
    cases Draw.square_error hdraw
    exact .inl (.inl hdraw)
  | ok square =>
    rcases Nat.lt_or_ge (r.losing square + r.carryIn) Amount.limit with hpool | hpool
    · by_cases hstaked : r.staked.get square = 0
      · obtain ⟨round, split, hgranted, hsplits⟩ : ∃ round split,
            r.resolve seed settings = .ok (round, split) ∧ r.Splits settings square round split :=
          resolve_of_empty hopen hbooks hdraw hpool hstaked
        exact .inr (.inr ⟨square, round, split, rfl, hgranted, hsplits⟩)
      · obtain ⟨-, hwon⟩ := resolve_of_staked hopen hbooks hdraw hpool hsettings hstaked
        cases hunit : Draw.jackpot seed r.id (r.staked.get square) with
        | error fault =>
          cases Draw.jackpot_error hunit
          exact .inl (.inr ⟨square, hdraw, hpool, hstaked, hunit⟩)
        | ok unit =>
          obtain ⟨round, split, hgranted, hsplits⟩ := hwon unit hunit
          exact .inr (.inr ⟨square, round, split, rfl, hgranted, hsplits⟩)
    · exact .inr (.inl ⟨square, hdraw, hpool⟩)

end Cases

/-! ## All resolutions -/

/-- A resolution splits the pool exactly. Of an open round whose books balance, under any settings
that can be in force and for every seed, it is refused only if a draw gives up or the losing stake
and what was carried in make more than an amount. When it is granted, some square was drawn. With
stake on it, that stake, the winnings, the jackpot and the fee make up the whole pool, nothing is
burned or carried on, the fee is all that leaves, and the jackpot's unit is one of the square's.
Without, nothing is paid, and the whole pool is carried on or burned as the settings say. -/
theorem splits_exactly (hopen : r.winner = none)
    (hbooks : r.totalStaked = ∑ square : Square, r.staked.get square)
    (hsettings : settings.InForce) (seed : Bytes32) :
    (∀ fault, r.resolve seed settings = .error fault ↔
      fault = .drawExhausted ∧ r.Undrawn seed ∨ fault = .overflow ∧ r.Overfull seed) ∧
    ∀ round split, r.resolve seed settings = .ok (round, split) →
      ∃ square, Draw.square seed r.id = .ok square ∧ r.Splits settings square round split := by
  have hcases := resolve_cases hopen hbooks hsettings.sound seed
  have hundrawn : r.Undrawn seed → r.resolve seed settings = .error .drawExhausted :=
    resolve_of_undrawn hopen hbooks hsettings.sound
  have hoverfull : r.Overfull seed → r.resolve seed settings = .error .overflow :=
    resolve_of_overfull hopen hbooks
  constructor
  · intro fault
    constructor
    · intro hrefused
      rcases hcases with h | h | ⟨square, round, split, -, hgranted, -⟩
      · cases (hundrawn h).symm.trans hrefused
        exact .inl ⟨rfl, h⟩
      · cases (hoverfull h).symm.trans hrefused
        exact .inr ⟨rfl, h⟩
      · cases hgranted.symm.trans hrefused
    · rintro (⟨rfl, h⟩ | ⟨rfl, h⟩)
      · exact hundrawn h
      · exact hoverfull h
  · intro round split hgranted
    rcases hcases with h | h | ⟨square, round', split', hdraw, hsame, hsplits⟩
    · cases (hundrawn h).symm.trans hgranted
    · cases (hoverfull h).symm.trans hgranted
    · cases hsame.symm.trans hgranted
      exact ⟨square, hdraw, hsplits⟩

/-- Three players, one of whom loses, at the settings that a house opens with. -/
theorem splits_exactly_threePlayers :
    ∃ square : Square, Draw.square (Bytes.fill32 7) 1 = .ok square ∧
      Pool.threePlayers.round.Splits (Settings.initial 0) square Pool.threePlayersDrawn
        { fee := 10 } := by
  have hbooks : Pool.threePlayers.round.totalStaked
      = ∑ square : Square, Pool.threePlayers.round.staked.get square := by decide
  exact (splits_exactly rfl hbooks (.initial 0) (Bytes.fill32 7)).2 _ _ Pool.threePlayers_resolve

end Round

end DiceHouse
