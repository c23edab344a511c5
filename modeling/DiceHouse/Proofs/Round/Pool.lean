import DiceHouse.Proofs.Round.Payout
import Mathlib.Data.Fintype.Basic
import Mathlib.Logic.Function.Basic

/-!
# A round among its players

Any number of players stake on one round, in any order and as often as they like; a stake that is
refused changes nothing. When the round is resolved, what they get together is no more than what
they put in and what the round started with, less the fee, and one of them gets the jackpot.
-/

namespace DiceHouse

/-- A round and the tickets of its players. -/
structure Pool (ι κ : Type) where
  round : Round κ
  ticket : ι → Ticket κ

namespace Pool

variable {ι κ ν : Type}

/-- What a player asks for. -/
structure Order (ι : Type) where
  player : ι
  square : Nat
  amount : Nat
  prediction : Nat

/-- A round and a blank ticket for each player, whatever number it bears. -/
def fresh (round : Round κ) (owner : ι → κ) (number : ι → Nat) : Pool ι κ where
  round := round
  ticket i := { Ticket.blank (owner i) with round := number i }

/-- A round that just started and a blank ticket for each player. -/
def opened (nobody rentPayer : κ) (owner : ι → κ) (id carryIn expiresAt : Nat) : Pool ι κ where
  round := Round.start nobody id carryIn expiresAt rentPayer
  ticket i := { Ticket.blank (owner i) with round := id }

/-- What an order is told, and the round and the player's ticket as it leaves them. -/
def outcome (p : Pool ι κ) (o : Order ι) : Except Fault Unit × Round κ × Ticket κ :=
  p.round.stakeOutcome (p.ticket o.player) o.square o.amount o.prediction

/-- What an order is told. -/
def answer (p : Pool ι κ) (o : Order ι) : Except Fault Unit := (p.outcome o).1

section Run

variable [DecidableEq ι]

/-- The pool that an order leaves, granted or refused. -/
def step (p : Pool ι κ) (o : Order ι) : Pool ι κ where
  round := (p.outcome o).2.1
  ticket := Function.update p.ticket o.player (p.outcome o).2.2

/-- Orders one after another. -/
def run (p : Pool ι κ) (orders : List (Order ι)) : Pool ι κ := orders.foldl step p

variable {p : Pool ι κ} {o : Order ι} {staked : Round κ × Ticket κ} {fault : Fault}

theorem step_of_stake
    (h : p.round.stake (p.ticket o.player) o.square o.amount o.prediction = .ok staked) :
    p.answer o = .ok () ∧ p.step o = ⟨staked.1, Function.update p.ticket o.player staked.2⟩ := by
  unfold answer step outcome
  rw [Round.stakeOutcome_of_ok h]
  exact ⟨rfl, rfl⟩

/-- A refused order leaves all as it was. -/
theorem step_of_refused
    (h : p.round.stake (p.ticket o.player) o.square o.amount o.prediction = .error fault) :
    p.answer o = .error fault ∧ p.step o = p := by
  unfold answer step outcome
  rw [Round.stakeOutcome_of_error h]
  dsimp only
  rw [Function.update_eq_self]
  exact ⟨rfl, rfl⟩

end Run

section Sold

variable [Fintype ι]

/-- All tickets. -/
def tickets (p : Pool ι κ) : Multiset (Ticket κ) := Finset.univ.val.map p.ticket

theorem sold_fresh (nobody rentPayer : κ) (owner : ι → κ) (number : ι → Nat)
    (id carryIn expiresAt : Nat) :
    (Round.start nobody id carryIn expiresAt rentPayer).Sold
      (fresh (Round.start nobody id carryIn expiresAt rentPayer) owner number).tickets := by
  unfold tickets
  induction (Finset.univ : Finset ι).val using Multiset.induction_on with
  | empty => exact Round.sold_start nobody id carryIn expiresAt rentPayer
  | cons i s ih =>
    rw [Multiset.map_cons]
    exact ih.addBlank (owner i) (number i)

theorem sold_opened (nobody rentPayer : κ) (owner : ι → κ) (id carryIn expiresAt : Nat) :
    Round.Sold (opened nobody rentPayer owner id carryIn expiresAt).round
      (opened nobody rentPayer owner id carryIn expiresAt).tickets :=
  sold_fresh nobody rentPayer owner (fun _ => id) id carryIn expiresAt

variable [DecidableEq ι]

/-- A player's ticket and those of the others. -/
theorem map_ticket (f : ι → Ticket κ) (i : ι) :
    Finset.univ.val.map f = f i ::ₘ (Finset.univ.erase i).val.map f := by
  rw [← Multiset.map_cons, Finset.erase_val, Multiset.cons_erase (Finset.mem_univ_val i)]

/-- What every stake keeps between a round and its tickets, any orders keep. -/
theorem run_keeps {Books : Round κ → Multiset (Ticket κ) → Prop}
    (hstake : ∀ {r : Round κ} {t : Ticket κ} {rest : Multiset (Ticket κ)}
      {square amount prediction : Nat} {staked : Round κ × Ticket κ}, Books r (t ::ₘ rest) →
      r.stake t square amount prediction = .ok staked → Books staked.1 (staked.2 ::ₘ rest))
    {p : Pool ι κ} (h : Books p.round p.tickets) (orders : List (Order ι)) :
    Books (p.run orders).round (p.run orders).tickets := by
  induction orders generalizing p with
  | nil => exact h
  | cons o orders ih =>
    refine ih (p := p.step o) ?_
    cases hs : p.round.stake (p.ticket o.player) o.square o.amount o.prediction with
    | error fault =>
      rw [(step_of_refused hs).2]
      exact h
    | ok staked =>
      rw [(step_of_stake hs).2]
      unfold tickets at h ⊢
      dsimp only
      -- the ticket that takes the stake is split off, and the others are as they were
      rw [map_ticket _ o.player] at h ⊢
      have hothers : (Finset.univ.erase o.player).val.map
          (Function.update p.ticket o.player staked.2) =
            (Finset.univ.erase o.player).val.map p.ticket :=
        Multiset.map_congr rfl fun j hj =>
          Function.update_of_ne (Finset.ne_of_mem_erase hj) _ _
      rw [Function.update_self, hothers]
      exact hstake h hs

theorem sold_run {p : Pool ι κ} (h : p.round.Sold p.tickets) (orders : List (Order ι)) :
    (p.run orders).round.Sold (p.run orders).tickets :=
  run_keeps (fun hsold hs => hsold.stake hs) h orders

end Sold

/-- One player's ticket covers a unit of stake. -/
theorem exists_covers [Fintype ι] {p : Pool ι κ} (h : p.round.Sold p.tickets) {square : Square}
    {unit : Nat} (hunit : unit < p.round.staked.get square) :
    ∃ i, (p.ticket i).covers square unit ∧ ∀ j, j ≠ i → ¬(p.ticket j).covers square unit := by
  have hcount := h.covered square unit
  rw [if_pos hunit, tickets, Multiset.countP_map] at hcount
  -- one ticket in the family covers the unit, and it stands there once
  obtain ⟨i, hi⟩ := Multiset.card_eq_one.mp hcount
  have hmem : ∀ j, (p.ticket j).covers square unit ↔ j = i := fun j => by
    rw [← Multiset.mem_singleton, ← hi, Multiset.mem_filter]
    exact ⟨fun hj => ⟨Finset.mem_univ_val j, hj⟩, fun hj => hj.2⟩
  exact ⟨i, (hmem i).mpr rfl, fun j hj hc => hj ((hmem j).mp hc)⟩

/-- What the players of a round get: the shares are within the winnings, the stake on the winning
square comes back, one player gets the jackpot, and everything is within the pool less the fee. -/
theorem payouts_within_pool [Fintype ι] [DecidableEq ι] {nobody rentPayer : κ} {owner : ι → κ}
    {id carryIn expiresAt : Nat} {orders : List (Order ι)} {p : Pool ι κ} {seed : Bytes32}
    {settings : Settings ν} {round : Round κ} {split : Split} {square : Square}
    {paid : ι → Payout}
    (hp : p = (opened nobody rentPayer owner id carryIn expiresAt).run orders)
    (hresolve : p.round.resolve seed settings = .ok (round, split))
    (hsquare : round.winningSquare = .ok square) (hstaked : round.staked.get square ≠ 0)
    (hpaid : ∀ i, round.payout (p.ticket i) = .ok (paid i)) :
    ∑ i, (paid i).share ≤ round.winnings ∧
      ∑ i, (paid i).stake = round.staked.get square ∧
      (∃ i, (p.ticket i).covers square round.jackpotUnit ∧ (paid i).jackpot = round.jackpot ∧
        ∀ j, j ≠ i → ¬(p.ticket j).covers square round.jackpotUnit ∧ (paid j).jackpot = 0) ∧
      ∑ i, (paid i).sum + split.fee ≤ round.totalStaked + round.carryIn := by
  have hsold : p.round.Sold p.tickets := by
    rw [hp]
    exact sold_run (sold_opened nobody rentPayer owner id carryIn expiresAt) orders
  obtain ⟨w, hdrawn⟩ : ∃ w, Round.Drawn p.round round split w := Round.resolve_ok hresolve
  cases hsquare.symm.trans (Round.winningSquare_eq hdrawn.winner)
  obtain ⟨-, -, hunit, hpool⟩ := hdrawn.won (hdrawn.staked ▸ hstaked)
  have hsold' : round.Sold p.tickets :=
    hsold.congr hdrawn.staked hdrawn.predicted hdrawn.totalStaked
  have hdue : ∀ i, paid i = round.due square (p.ticket i) := by
    intro i
    exact Round.payout_ok hdrawn.winner hstaked (hpaid i)
  have hsum : ∀ f : Payout → Nat, ∑ i, f (paid i) =
      (p.tickets.map fun t => f (round.due square t)).sum := by
    intro f
    rw [tickets, Multiset.map_map]
    exact Finset.sum_congr rfl fun i _ => congrArg f (hdue i)
  refine ⟨?_, ?_, ?_, ?_⟩
  · rw [hsum Payout.share]
    exact hsold'.sum_share_le square
  · rw [hsum Payout.stake]
    exact (hsold'.staked square).symm
  · obtain ⟨i, hi, hothers⟩ := exists_covers hsold hunit
    refine ⟨i, hi, ?_, fun j hj => ⟨hothers j hj, ?_⟩⟩
    · rw [hdue, Round.due, if_pos hi]
    · rw [hdue, Round.due, if_neg (hothers j hj)]
  · rw [hsum Payout.sum]
    have hle := hsold'.sum_due_le (hdrawn.staked ▸ hunit)
    rw [hdrawn.totalStaked, hdrawn.carryIn, ← hpool, ← hdrawn.staked]
    omega

/-! ## Three players -/

/-- Two players stake on a square, one of them with the right prediction, and a third elsewhere; a
second stake on the same square is refused. -/
def threePlayers : Pool (Fin 3) Nat :=
  (opened 0 0 (fun i => i.val) 1 40 1000).run
    [⟨0, 26, 100, 0⟩, ⟨2, 3, 1000, 0⟩, ⟨1, 26, 50, 8⟩, ⟨0, 26, 5, 0⟩]

/-- The round that they staked on, resolved. -/
def threePlayersDrawn : Round Nat := { threePlayers.round with
  seed := Bytes.fill32 7
  winner := some 26
  die1 := 5
  die2 := 3
  jackpotUnit := 119
  jackpot := 100
  winnings := 930
  totalVaulted := 10
  bonusBps := 20000 }

/-- What each of them gets. -/
def threePlayersPaid : Fin 3 → Payout := ![⟨100, 465, 0⟩, ⟨50, 465, 100⟩, {}]

/-- The square that a seed of sevens draws for the first round. -/
theorem square_sevens : Draw.square (Bytes.fill32 7) 1 = .ok 26 :=
  eq_ok_of_toOption (by decide +kernel)

/-- The unit that it draws among 150. -/
theorem jackpot_sevens : Draw.jackpot (Bytes.fill32 7) 1 150 = .ok 119 :=
  eq_ok_of_toOption (by decide +kernel)

theorem threePlayers_resolve :
    threePlayers.round.resolve (Bytes.fill32 7) (Settings.initial 0)
      = .ok (threePlayersDrawn, { fee := 10 }) := by
  have hid : threePlayers.round.id = 1 := by decide
  have hstaked : threePlayers.round.staked.get 26 = 150 := by decide
  rw [Round.resolve_of_draws (hid ▸ square_sevens) (by rw [hid, hstaked]; exact jackpot_sevens)
    (by rw [hstaked]; decide)]
  exact eq_ok_of_toOption (by decide)

theorem threePlayers_payout :
    ∀ i, threePlayersDrawn.payout (threePlayers.ticket i) = .ok (threePlayersPaid i) := by
  intro i
  refine eq_ok_of_toOption ?_
  revert i
  decide

theorem payouts_within_pool_threePlayers :
    ∑ i, (threePlayersPaid i).share ≤ 930 ∧ ∑ i, (threePlayersPaid i).stake = 150 ∧
      (∃ i, (threePlayers.ticket i).covers 26 119 ∧ (threePlayersPaid i).jackpot = 100 ∧
        ∀ j, j ≠ i →
          ¬(threePlayers.ticket j).covers 26 119 ∧ (threePlayersPaid j).jackpot = 0) ∧
      ∑ i, (threePlayersPaid i).sum + 10 ≤ 1150 + 40 :=
  payouts_within_pool rfl threePlayers_resolve rfl (by decide) threePlayers_payout

end Pool

end DiceHouse
