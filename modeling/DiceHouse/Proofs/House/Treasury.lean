import DiceHouse.Proofs.House.Custody
import DiceHouse.Proofs.House.Orders
import DiceHouse.Proofs.House.Staking
import DiceHouse.Proofs.House.Succession

/-!
# The lifetime totals

The treasury adds up where the pools of all rounds went, and what was claimed of them; the rounds
say the same. The totals are amounts, and a draw that would take one of them beyond the range of
amounts is refused. A pool that is carried on counts again with each draw that carries it. So the
totals are not bounded by the tokens that there are, but by these times the number of draws: a pool
of half that range cannot be carried twice.
-/

namespace DiceHouse

namespace Treasury

variable {t t' : Treasury} {split : Split}

/-- Where the pools of all draws went. -/
def drawn (t : Treasury) : Nat := t.totalFees + t.totalBurned + t.totalCarried

/-- With this split the totals stay amounts. -/
structure HasRoom (t : Treasury) (split : Split) : Prop where
  fees : t.totalFees + split.fee < Amount.limit
  burned : t.totalBurned + split.burned < Amount.limit
  carried : t.totalCarried + split.carried < Amount.limit

theorem record_of_hasRoom (h : t.HasRoom split) :
    t.record split = .ok
      { t with
        totalFees := t.totalFees + split.fee
        totalBurned := t.totalBurned + split.burned
        totalCarried := t.totalCarried + split.carried } := by
  unfold record
  rw [Amount.add_of_lt h.fees, ok_bind, Amount.add_of_lt h.burned, ok_bind,
    Amount.add_of_lt h.carried, ok_bind]
  rfl

theorem record_ok (h : t.record split = .ok t') :
    t.HasRoom split ∧ t'.totalFees = t.totalFees + split.fee ∧
      t'.totalBurned = t.totalBurned + split.burned ∧
      t'.totalCarried = t.totalCarried + split.carried ∧ t'.totalClaimed = t.totalClaimed := by
  unfold record at h
  simp only [bind_eq_ok_iff, Amount.add_eq_ok_iff, pure_eq_ok_iff] at h
  obtain ⟨_, ⟨hfees, rfl⟩, _, ⟨hburned, rfl⟩, _, ⟨hcarried, rfl⟩, rfl⟩ := h
  exact ⟨⟨hfees, hburned, hcarried⟩, rfl, rfl, rfl, rfl⟩

/-- What would take a total beyond the range of amounts is refused as that. -/
theorem record_of_not_hasRoom (h : ¬t.HasRoom split) : t.record split = .error .overflow := by
  by_cases hfees : t.totalFees + split.fee < Amount.limit
  · by_cases hburned : t.totalBurned + split.burned < Amount.limit
    · have hcarried : Amount.limit ≤ t.totalCarried + split.carried :=
        Nat.not_lt.mp fun hlt => h ⟨hfees, hburned, hlt⟩
      unfold record
      rw [Amount.add_of_lt hfees, ok_bind, Amount.add_of_lt hburned, ok_bind,
        Amount.add_of_le hcarried]
      rfl
    · unfold record
      rw [Amount.add_of_lt hfees, ok_bind, Amount.add_of_le (Nat.not_lt.mp hburned)]
      rfl
  · unfold record
    rw [Amount.add_of_le (Nat.not_lt.mp hfees)]
    rfl

theorem claim_ok {amount : Nat} (h : t.claim amount = .ok t') :
    t' = { t with totalClaimed := t.totalClaimed + amount } := by
  unfold claim at h
  simp only [bind_eq_ok_iff, Amount.add_eq_ok_iff, pure_eq_ok_iff] at h
  obtain ⟨_, ⟨-, rfl⟩, rfl⟩ := h
  rfl

end Treasury

/-- Nothing is taken out of a round before it is drawn. -/
theorem Round.Standing.vaulted_of_open {κ ν : Type} {r : Round κ} {tickets : Multiset (Ticket ν)}
    (h : r.Standing tickets) (hopen : r.winner = none) : r.totalVaulted = 0 := by
  cases h with
  | selling _ _ _ hvaulted => exact hvaulted
  | empty _ hwinner => cases hopen.symm.trans hwinner
  | paying _ hwinner => cases hopen.symm.trans hwinner

namespace Ledger

/-- The lifetime totals, which are nothing before there is a treasury. -/
def totals (l : Ledger) : Treasury :=
  match l.load .treasury .treasury with
  | .ok t => t
  | .error _ => .blank

/-- The totals are those of the rounds. -/
structure Recorded (l : Ledger) : Prop where
  vaulted : l.totals.totalFees + l.totals.totalBurned = (l.rounds.map Round.totalVaulted).sum
  carried : l.totals.totalCarried = (l.rounds.map Round.carryIn).sum
  claimed : l.totals.totalClaimed = (l.rounds.map Round.totalClaimed).sum

/-- The window has closed, the hash that the round waits for is there, and the round is resolved
with it. -/
structure Due (l : Ledger) (slot : Nat) (b : Board) (config : Settings Address)
    (resolved : Round Address × Split) : Prop where
  board : l.load .board .board = .ok b
  isClosed : b.finish ≤ slot
  settings : l.load .settings .settings = .ok config
  resolves : ∃ r seed, l.load .round (.round b.round) = .ok r ∧
    SlotHistory.lookup (l .slotHashes).contents.toBytes b.seedSlot = .ok (.found seed) ∧
    r.resolve seed config = .ok resolved

/-- What the board, the settings and the draw of the current round are, if its hash is there. -/
def outcome (l : Ledger) :
    Except Refusal (Board × Settings Address × Round Address × Split) := do
  let b : Board ← l.load .board .board
  let config : Settings Address ← l.load .settings .settings
  let r : Round Address ← l.load .round (.round b.round)
  match ← SlotHistory.lookup (l .slotHashes).contents.toBytes b.seedSlot with
  | .found seed =>
    let resolved ← r.resolve seed config
    return (b, config, resolved)
  | _ => .error (.fault .seedUnavailable)

variable {l m : Ledger} {t : Treasury} {slot : Nat} {b : Board} {config : Settings Address}
  {resolved : Round Address × Split}

theorem due_of_outcome (h : l.outcome = .ok (b, config, resolved)) (hclosed : b.finish ≤ slot) :
    l.Due slot b config resolved := by
  unfold outcome at h
  simp only [bind_eq_ok_iff, liftM_eq_ok_iff] at h
  obtain ⟨b', hb, config', hconfig, r, hr, found, hfound, h⟩ := h
  cases found with
  | found seed =>
    simp only [bind_eq_ok_iff, liftM_eq_ok_iff, pure_eq_ok_iff] at h
    obtain ⟨resolved', hresolve, hsame⟩ := h
    cases hsame
    exact ⟨hb, hclosed, hconfig, r, seed, hr, hfound, hresolve⟩
  | pending => cases h
  | expired => cases h

theorem totals_of_load (h : l.load .treasury .treasury = .ok t) : l.totals = t := by
  unfold totals
  rw [h]

theorem totals_of_absent (h : ∀ t, l.load .treasury .treasury ≠ .ok t) : l.totals = .blank := by
  unfold totals
  cases ht : l.load .treasury .treasury with
  | ok t => exact absurd ht (h t)
  | error _ => rfl

theorem totals_congr (h : m.load .treasury .treasury = l.load .treasury .treasury) :
    m.totals = l.totals := by
  unfold totals
  rw [h]

/-- Neither the totals nor the rounds have changed. -/
theorem Recorded.congr (h : l.Recorded)
    (htreasury : m.load .treasury .treasury = l.load .treasury .treasury)
    (hrounds : ∀ n, m.load .round (.round n) = l.load .round (.round n)) : m.Recorded := by
  obtain ⟨hvaulted, hcarried, hclaimed⟩ := h
  rw [← totals_congr htreasury, ← rounds_congr hrounds] at hvaulted hcarried hclaimed
  exact ⟨hvaulted, hcarried, hclaimed⟩

end Ledger

namespace House

variable {accounts : List Access} {l m : Ledger} {slot bound : Nat} {b : Board} {t : Treasury}
  {config : Settings Address} {resolved : Round Address × Split}

/-! ## What the totals say -/

/-- In a sum over the rounds, a resolution replaces one round and adds the next. -/
theorem sum_rounds_resolution (f : Round Address → Nat)
    (g : Operation.Resolution slot accounts l m) :
    (m.rounds.map f).sum + f g.round = (l.rounds.map f).sum + f g.resolved.1
      + f (Round.start .system (g.board.round + 1) (g.board.carryover + g.resolved.2.carried)
        g.expiresAt g.payer) := by
  obtain ⟨mid, -, hother, hround, hnext_absent, hrounds⟩ := g.exists_between
  have hreplaced := Ledger.sum_rounds_replace f
    (fun k hk => hother .round _ (by simpa using hk)) g.round_load hround
  have hinserted := Ledger.sum_rounds_insert f hrounds hnext_absent g.next_after
  omega

theorem recorded_opening (hl : l.Recorded) (g : Operation.Opening slot accounts l m) :
    m.Recorded := by
  have hrounds : ∀ k, k ≠ 1 → m.load .round (.round k) = l.load .round (.round k) := by
    intro k hk
    exact (g.rest _ (by simp) (by simp) (by simp) (by simpa using hk) (by simp)).load _
  obtain ⟨hvaulted, hcarried, hclaimed⟩ := hl
  rw [Ledger.totals_of_absent g.treasury_absent] at hvaulted hcarried hclaimed
  constructor
  all_goals rw [Ledger.totals_of_load g.treasury_after,
    Ledger.sum_rounds_insert _ hrounds g.round_absent g.round_after]
  · exact hvaulted
  · exact hcarried
  · exact hclaimed

/-- A stake changes none of the figures. -/
theorem recorded_stake {amount square prediction : Nat} (hl : l.Recorded)
    (g : Operation.Stake slot amount square prediction accounts l m) : m.Recorded := by
  have hrounds : ∀ k, k ≠ g.board.round → m.load .round (.round k) = l.load .round (.round k) :=
    fun k hk => g.records .round _ (by simpa using hk) (by simp) (by simp)
  obtain ⟨_, _, -, -, -, -, -, -, -, hround, -⟩ := Round.stake_ok g.stake
  have hsum (f : Round Address → Nat) (hf : f g.staked.1 = f g.round) :
      (m.rounds.map f).sum = (l.rounds.map f).sum := by
    have hreplaced := Ledger.sum_rounds_replace f hrounds g.round_load g.round_after
    omega
  obtain ⟨hvaulted, hcarried, hclaimed⟩ := hl
  rw [← Ledger.totals_congr (g.records .treasury .treasury (by simp) (by simp) (by simp))]
    at hvaulted hcarried hclaimed
  rw [← hsum _ (by rw [hround])] at hvaulted hcarried hclaimed
  exact ⟨hvaulted, hcarried, hclaimed⟩

/-- A draw is recorded in the round that was drawn and in what the next one was handed. -/
theorem recorded_resolution (hl : l.Recorded) (hc : l.Custody) (hempty : ∀ b,
    l.load .board .board = .ok b → b.carryover = 0)
    (g : Operation.Resolution slot accounts l m) : m.Recorded := by
  obtain ⟨-, hfees, hburned, hcarried', hclaimed'⟩ := Treasury.record_ok g.record
  obtain ⟨square, hdrawn⟩ := Round.resolve_ok g.resolve
  obtain ⟨-, hstands⟩ := hc.standing _ _ g.round_load
  have hfresh : g.round.totalVaulted = 0 := hstands.vaulted_of_open hdrawn.open_before
  have hnothing : g.board.carryover = 0 := hempty _ g.board_load
  have hvaulted_sum := sum_rounds_resolution Round.totalVaulted g
  have hcarried_sum := sum_rounds_resolution Round.carryIn g
  have hclaimed_sum := sum_rounds_resolution Round.totalClaimed g
  rw [hdrawn.vaulted, hfresh] at hvaulted_sum
  rw [hdrawn.carryIn, hnothing] at hcarried_sum
  rw [hdrawn.totalClaimed] at hclaimed_sum
  simp only [Round.start, Round.blank] at hvaulted_sum hcarried_sum hclaimed_sum
  obtain ⟨hvaulted, hcarried, hclaimed⟩ := hl
  rw [Ledger.totals_of_load g.treasury_load] at hvaulted hcarried hclaimed
  constructor
  all_goals rw [Ledger.totals_of_load g.treasury_after]
  all_goals omega

theorem recorded_claim (hl : l.Recorded) (g : Operation.Claim slot accounts l m) :
    m.Recorded := by
  have hrounds : ∀ k, k ≠ g.ticket.round → m.load .round (.round k) = l.load .round (.round k) :=
    fun k hk => g.records .round _ (by simpa using hk) (by simp) (by simp)
  have hsum (f : Round Address → Nat) :=
    Ledger.sum_rounds_replace f hrounds g.round_load g.round_after
  have hvaulted_sum := hsum Round.totalVaulted
  have hcarried_sum := hsum Round.carryIn
  have hclaimed_sum := hsum Round.totalClaimed
  dsimp only at hvaulted_sum hcarried_sum hclaimed_sum
  obtain ⟨hvaulted, hcarried, hclaimed⟩ := hl
  rw [Ledger.totals_of_load g.treasury_load] at hvaulted hcarried hclaimed
  constructor
  all_goals rw [Ledger.totals_of_load g.treasury_after, Treasury.claim_ok g.record]
  all_goals dsimp only
  all_goals omega

theorem StakingMove.recorded (h : StakingMove accounts l m) (hl : l.Recorded) (hc : l.Custody)
    (hempty : ∀ b, l.load .board .board = .ok b → b.carryover = 0) : m.Recorded := by
  cases h with
  | same _ hrounds htreasury => exact hl.congr htreasury hrounds
  | opened g => exact recorded_opening hl g
  | staked g => exact recorded_stake hl g
  | rearmed g =>
    exact hl.congr ((g.rest _ (by simp)).load _) fun _ => (g.rest _ (by simp)).load _
  | drawn g => exact recorded_resolution hl hc hempty g
  | cashed g => exact recorded_claim hl g

theorem Run.recorded (run : Run Authentic Ledger.Outside) (k : Nat) :
    (run.ledger k).Recorded := by
  induction k with
  | zero =>
    rw [ledger_zero]
    exact ⟨rfl, rfl, rfl⟩
  | succ k ih =>
    obtain ⟨accounts, hmove⟩ := run.stakingMove k
    exact hmove.recorded ih (run.reachable k).custody (run.board_emptied k)

/-! ## How far the totals grow -/

/-- What a draw takes out of a round was there. -/
theorem split_le_tokens {n : Nat} {r : Round Address} {seed : Bytes32} (hc : l.Custody)
    (hr : l.load .round (.round n) = .ok r) (hresolve : r.resolve seed config = .ok resolved) :
    resolved.2.fee + resolved.2.burned + resolved.2.carried ≤ l.tokens := by
  obtain ⟨-, hstands⟩ := hc.standing _ _ hr
  obtain ⟨-, -, hliability⟩ := hstands.resolve hresolve
  have howing := liability_le_owing (Ledger.mem_rounds.mpr ⟨n, hr⟩)
  have hcover := hc.cover
  omega

/-- The totals of the draws have grown, with each round that was drawn, by no more than this. -/
def Within (bound : Nat) (l : Ledger) : Prop :=
  ∀ b, l.load .board .board = .ok b → l.totals.drawn + bound ≤ b.round * bound

theorem within_resolution (hl : Within bound l) (hc : l.Custody) (htokens : l.tokens ≤ bound)
    (g : Operation.Resolution slot accounts l m) : Within bound m := by
  intro b hb
  cases g.board_after.symm.trans hb
  have hround : g.advanced.emptied.round = g.board.round + 1 := (Board.advance_ok g.advance).1
  have hsplit := (split_le_tokens hc g.round_load g.resolve).trans htokens
  have hbefore := hl _ g.board_load
  obtain ⟨-, hfees, hburned, hcarried, -⟩ := Treasury.record_ok g.record
  rw [Ledger.totals_of_load g.treasury_load] at hbefore
  rw [Ledger.totals_of_load g.treasury_after, hround, Nat.succ_mul]
  unfold Treasury.drawn at hbefore ⊢
  omega

/-- What neither draws a round nor moves the board on leaves the totals of the draws. -/
theorem within_of_same (hl : Within bound l) (hdrawn : m.totals.drawn = l.totals.drawn)
    (hboard : ∀ b, m.load .board .board = .ok b →
      ∃ b', l.load .board .board = .ok b' ∧ b'.round = b.round) : Within bound m := by
  intro b hb
  obtain ⟨b', hb', hround⟩ := hboard b hb
  rw [hdrawn, ← hround]
  exact hl b' hb'

theorem StakingMove.within (h : StakingMove accounts l m) (hl : Within bound l) (hc : l.Custody)
    (htokens : l.tokens ≤ bound) : Within bound m := by
  cases h with
  | same hboard _ htreasury =>
    exact within_of_same hl (by rw [Ledger.totals_congr htreasury])
      fun b hb => ⟨b, hboard ▸ hb, rfl⟩
  | opened g =>
    intro b hb
    cases g.board_after.symm.trans hb
    rw [Ledger.totals_of_load g.treasury_after, Operation.round_firstBoard g.first, Nat.one_mul]
    exact (Nat.zero_add bound).le
  | staked g =>
    have hboard := g.records .board .board (by simp) (by simp) (by simp)
    exact within_of_same hl
      (by rw [Ledger.totals_congr (g.records _ _ (by simp) (by simp) (by simp))])
      fun b hb => ⟨b, hboard ▸ hb, rfl⟩
  | rearmed g =>
    refine within_of_same hl (by rw [Ledger.totals_congr ((g.rest _ (by simp)).load _)])
      fun b hb => ⟨g.board, g.board_load, ?_⟩
    cases g.board_after.symm.trans hb
    exact (Board.rearm_ok g.rearm).1.symm
  | drawn g => exact within_resolution hl hc htokens g
  | cashed g =>
    have hboard := g.records .board .board (by simp) (by simp) (by simp)
    refine within_of_same hl ?_ fun b hb => ⟨b, hboard ▸ hb, rfl⟩
    rw [Ledger.totals_of_load g.treasury_after, Ledger.totals_of_load g.treasury_load,
      Treasury.claim_ok g.record]
    rfl

theorem Run.within (run : Run Authentic Ledger.Outside) (k : Nat)
    (htokens : ∀ j < k, (run.ledger j).tokens ≤ bound) : Within bound (run.ledger k) := by
  induction k with
  | zero =>
    rw [ledger_zero]
    exact fun b hb => (nomatch hb)
  | succ k ih =>
    obtain ⟨accounts, hmove⟩ := run.stakingMove k
    exact hmove.within (ih fun j hj => htokens j (Nat.lt_succ_of_lt hj)) (run.reachable k).custody
      (htokens k (Nat.lt_succ_self k))

/-- A few draws of not too many tokens leave room for one more. -/
theorem hasRoom_of_within (hl : Within bound l) (hc : l.Custody) (htokens : l.tokens ≤ bound)
    (hdue : l.Due slot b config resolved) (ht : l.load .treasury .treasury = .ok t)
    (hbound : b.round * bound < Amount.limit) : t.HasRoom resolved.2 := by
  obtain ⟨r, seed, hr, -, hresolve⟩ := hdue.resolves
  have hsplit := (split_le_tokens hc hr hresolve).trans htokens
  have hdrawn := hl b hdue.board
  rw [Ledger.totals_of_load ht] at hdrawn
  unfold Treasury.drawn at hdrawn
  exact ⟨by omega, by omega, by omega⟩

/-! ## The draw of a round that is due -/

/-- What remains of a resolution once the round is drawn. -/
theorem resolve_of_due {signer feeCollector : Address} (hdue : l.Due slot b config resolved)
    (ht : l.load .treasury .treasury = .ok t) :
    Deed.resolve slot signer b.round feeCollector l = (do
      let recorded ← t.record resolved.2
      let l := l.store .round (.round b.round) resolved.1
      let l := l.store .treasury .treasury recorded
      let l ← Deed.disburse resolved.2 feeCollector l
      let carryover ← Amount.add b.carryover resolved.2.carried
      Deed.startNext slot config { b with carryover } signer l) := by
  obtain ⟨r, seed, hr, hfound, hresolve⟩ := hdue.resolves
  unfold Deed.resolve Board.requireClosed
  simp only [hdue.board, require_of_true hdue.isClosed, hdue.settings, hr, ht, hfound, hresolve,
    liftM_ok, ok_bind]

/-- If a total would leave the range of amounts, the round is not drawn. -/
theorem resolve_of_not_hasRoom {signer feeCollector : Address}
    (hdue : l.Due slot b config resolved) (ht : l.load .treasury .treasury = .ok t)
    (hroom : ¬t.HasRoom resolved.2) :
    Deed.resolve slot signer b.round feeCollector l = .error (.fault .overflow) := by
  rw [resolve_of_due hdue ht, Treasury.record_of_not_hasRoom hroom]
  rfl

/-- If not, what is left to lack is tokens and lamports. -/
theorem short_resolve {signer feeCollector : Address} (hdue : l.Due slot b config resolved)
    (ht : l.load .treasury .treasury = .ok t) (hroom : t.HasRoom resolved.2)
    (hready : (Client.Order.resolve signer b.round feeCollector).Ready l)
    (hnothing : b.carryover = 0) (hround : b.round + 1 < Amount.limit)
    (hclock : slot + Board.intermission + config.roundDuration + Board.claimPeriod
      < Amount.limit) :
    RefusedOnly Refusal.Short (Deed.resolve slot signer b.round feeCollector l) := by
  rw [resolve_of_due hdue ht, Treasury.record_of_hasRoom hroom, liftM_ok, ok_bind]
  refine (short_split hready _ _ _).bind fun _ => ?_
  have hcarried := hroom.carried
  rw [hnothing, Amount.add_of_lt (by omega), liftM_ok, ok_bind]
  exact short_startNext hround hclock

/-- A granted request to resolve a round that is due moves the board on to the next. -/
theorem round_of_due {i : Instruction} {s : Session} (hdue : l.Due slot b config resolved)
    (hdecode : Request.decode i.data = some .resolve) (hp : process slot i l = .ok s) :
    ∃ b', s.ledger.load .board .board = .ok b' ∧ b'.round = b.round + 1 := by
  obtain ⟨r, seed, -, hfound, -⟩ := hdue.resolves
  rcases resolve_of_process hdecode hp with ⟨⟨g⟩⟩ | ⟨⟨g⟩⟩
  · -- the seed slot is not put off as long as its hash is there
    have hlapsed := g.lapsed
    cases g.board_load.symm.trans hdue.board
    cases hlapsed.symm.trans hfound
  · cases g.board_load.symm.trans hdue.board
    exact ⟨_, g.board_after, (Board.advance_ok g.advance).1⟩

/-- The lifetime totals stop a draw exactly when one of them would leave the range of amounts. In
every run they are the totals of the rounds: what was taken out of them, what they were handed and
what was claimed of them. When a round is due, its draw is recorded if and only if every total stays
an amount, as each does while the number of the round times the most tokens that the house ever had
is one. Then nothing but a want of tokens or lamports refuses a request to resolve on whose accounts
nothing is wrong, with room for the numbers of the next round, and a granted one moves the board on;
otherwise every such request is refused as an overflow. -/
theorem draws_recorded (run : Run Authentic Ledger.Outside) (k : Nat) :
    (∀ t, (run.ledger k).load .treasury .treasury = .ok t →
      t.totalFees + t.totalBurned = ((run.ledger k).rounds.map Round.totalVaulted).sum ∧
      t.totalCarried = ((run.ledger k).rounds.map Round.carryIn).sum ∧
      t.totalClaimed = ((run.ledger k).rounds.map Round.totalClaimed).sum) ∧
    ∀ slot b config resolved t, (run.ledger k).Due slot b config resolved →
      (run.ledger k).load .treasury .treasury = .ok t →
      ((∃ t', t.record resolved.2 = .ok t') ↔ t.HasRoom resolved.2) ∧
      (∀ bound, (∀ j ≤ k, (run.ledger j).balance (.wallet .treasury .rng) ≤ bound) →
        b.round * bound < Amount.limit → t.HasRoom resolved.2) ∧
      ∀ signer feeCollector i, Client.resolve signer b.round feeCollector = some i →
        (Client.Order.resolve signer b.round feeCollector).Ready (run.ledger k) →
        (¬t.HasRoom resolved.2 → process slot i (run.ledger k) = .error (.fault .overflow)) ∧
        (t.HasRoom resolved.2 →
          slot + Board.intermission + config.roundDuration + Board.claimPeriod < Amount.limit →
          RefusedOnly Refusal.Short (process slot i (run.ledger k))) ∧
        ∀ s, process slot i (run.ledger k) = .ok s →
          ∃ b', s.ledger.load .board .board = .ok b' ∧ b'.round = b.round + 1 := by
  have hcustody := (run.reachable k).custody
  refine ⟨fun t ht => ?_, fun slot b config resolved t hdue ht => ⟨?_, ?_, ?_⟩⟩
  · obtain ⟨hvaulted, hcarried, hclaimed⟩ := run.recorded k
    rw [Ledger.totals_of_load ht] at hvaulted hcarried hclaimed
    exact ⟨hvaulted, hcarried, hclaimed⟩
  · constructor
    · rintro ⟨t', hrecord⟩
      exact (Treasury.record_ok hrecord).1
    · exact fun hroom => ⟨_, Treasury.record_of_hasRoom hroom⟩
  · intro bound htokens hbound
    exact hasRoom_of_within (run.within k fun j hj => htokens j hj.le) hcustody
      (htokens k (Nat.le_refl k)) hdue ht hbound
  · intro signer feeCollector i hi hready
    have hdecode : Request.decode i.data = some .resolve :=
      decode_build (o := .resolve signer b.round feeCollector) hi trivial
    have hdoes : Does (process slot i (run.ledger k))
        (Deed.resolve slot signer b.round feeCollector (run.ledger k)) :=
      process_does (o := .resolve signer b.round feeCollector) hi trivial hready
    refine ⟨fun hfull => ?_, fun hroom hclock e he => ?_, fun s hs => round_of_due hdue hdecode hs⟩
    · rw [hdoes.error_iff, resolve_of_not_hasRoom hdue ht hfull]
    · have hround : b.round + 1 < Amount.limit := by
        by_contra hlast
        rw [Client.resolve, if_neg hlast] at hi
        cases hi
      exact short_resolve hdue ht hroom hready (run.board_emptied k b hdue.board) hround hclock e
        (hdoes.error_iff.mp he)

/-- Before the first round is drawn, nothing that its resolution is about is missing, and the house
has never had more than the stake of 1000. -/
theorem firstCarry_due :
    (firstCarry.ledger 4).outcome.toOption.map
        (fun p => (p.1, p.2.1.feeCollector, p.2.1.roundDuration, p.2.2.2))
        = some (⟨1, 0, 150, 150, 0⟩, .admin, 150, ⟨0, 0, 1000⟩) ∧
      ((firstCarry.ledger 4).load .round (.round 1)).toOption.map Round.id = some 1 ∧
      ((firstCarry.ledger 4) (.round 2)).contents.isEmpty = true ∧
      ((firstCarry.ledger 4).load .treasury .treasury).toOption = some .blank ∧
      ((firstCarry.ledger 4).wallet (.wallet .treasury .rng)).toOption
        = some { mint := .mint .rng, owner := .treasury, amount := 1000 } ∧
      ((firstCarry.ledger 4).wallet (.wallet .admin .rng)).toOption
        = some { mint := .mint .rng, owner := .admin, amount := 4000 } ∧
      ((firstCarry.ledger 4).supply (.mint .rng)).toOption = some Ledger.firstSupply ∧
      (∀ a ∈ [Address.system, .tokenProgram], ((firstCarry.ledger 4) a).executable = true) ∧
      ∀ j ≤ 4, (firstCarry.ledger j).balance (.wallet .treasury .rng) ≤ 1000 := by
  decide +kernel

/-- The first pool is carried on. -/
theorem draws_recorded_firstCarry :
    ∃ b config resolved t, (firstCarry.ledger 4).Due 150 b config resolved ∧
      (firstCarry.ledger 4).load .treasury .treasury = .ok t ∧ resolved.2 = ⟨0, 0, 1000⟩ ∧
      t.HasRoom resolved.2 ∧ (∃ t', t.record resolved.2 = .ok t') ∧
      RefusedOnly Refusal.Short (process 150 resolveFirst (firstCarry.ledger 4)) := by
  obtain ⟨houtcome, hround, hnext, htreasury, hvault, hcollector, hsupply, hruns, htokens⟩ :=
    firstCarry_due
  obtain ⟨⟨b, config, resolved⟩, houtcome, hfigures⟩ := exists_of_toOption_map houtcome
  simp only [Prod.mk.injEq] at hfigures
  obtain ⟨rfl, hfee, hduration, hsplit⟩ := hfigures
  obtain ⟨r, hr, hid⟩ := exists_of_toOption_map hround
  rw [toOption_eq_some_iff] at htreasury
  have hdue : (firstCarry.ledger 4).Due 150 ⟨1, 0, 150, 150, 0⟩ config resolved :=
    Ledger.due_of_outcome houtcome (by decide)
  have hready : (Client.Order.resolve .admin 1 .admin).Ready (firstCarry.ledger 4) :=
    ⟨⟨_, hdue.board, rfl⟩, ⟨config, hdue.settings, hfee⟩, ⟨r, hr, hid⟩, hnext,
      ⟨_, htreasury, trivial⟩,
      ⟨_, toOption_eq_some_iff.mp hvault, rfl, rfl, by decide, by decide⟩,
      ⟨_, toOption_eq_some_iff.mp hcollector, rfl, rfl, by decide, by decide⟩,
      ⟨_, toOption_eq_some_iff.mp hsupply⟩, hruns⟩
  obtain ⟨-, hdraws⟩ := draws_recorded firstCarry 4
  obtain ⟨hrecorded, hbounded, hcalls⟩ := hdraws 150 _ config resolved _ hdue htreasury
  have hroom : Treasury.blank.HasRoom resolved.2 := hbounded 1000 htokens (by decide)
  obtain ⟨-, hshort, -⟩ := hcalls .admin .admin resolveFirst rfl hready
  exact ⟨_, config, resolved, _, hdue, htreasury, hsplit, hroom, hrecorded.mpr hroom,
    hshort hroom (by rw [hduration]; decide)⟩

/-! ## A pool that is carried twice -/

/-- There are half as many tokens as there are amounts. -/
def minted : Ledger :=
  (run (.genesis [.admin]) [(0, Client.openHouse .admin)]).put (.mint .rng)
    { lamports := Ledger.rent supplyLayout.size
      owner := .tokenProgram
      executable := false
      contents := .mint 9223372036854775808 }

/-- The admin has them all. -/
def hoarded : Ledger :=
  minted.withWallet .admin .rng 9223372036854775808

/-- The admin stakes them on a square, and the slot history comes to hold a hash that draws
another. -/
def squandered : Ledger :=
  (run hoarded [(2, Client.stake .admin 1 3 9223372036854775808 0)]).withHistory
    [⟨149, Bytes.fill32 0⟩, ⟨150, Bytes.fill32 7⟩]

/-- All tokens are staked on the first round, and its pool is carried on. -/
def carrying : List Event :=
  [.call 0 (Client.openHouse .admin), .other minted, .other hoarded,
    .call 2 (Client.stake .admin 1 3 9223372036854775808 0), .other squandered,
    .call 150 resolveFirst]

/-- Nobody stakes on the second round, and the slot history comes to hold the hash for it. -/
def carriedOnce : Ledger :=
  (ledgerAfter [.admin] carrying).withHistory
    [⟨334, Bytes.fill32 0⟩, ⟨335, Bytes.fill32 7⟩]

/-- The pool of the first round waits to be carried on once more. -/
def lastCarry : Run Authentic Ledger.Outside where
  used := [.admin]
  events := carrying ++ [.other carriedOnce]
  permitted k event h := by
    match k with
    | 0 => cases h; exact .of_first rfl (by decide)
    | 1 => cases h; exact Ledger.outside_put _ _ rfl fun o k _ hc => by cases hc
    | 2 => cases h; exact Ledger.outside_withWallet _ _ _ rfl
    | 3 => cases h; exact .of_first rfl (by decide)
    | 4 => cases h; exact Ledger.outside_withHistory _ _
    | 5 => cases h; exact .of_first rfl (by decide)
    | 6 => cases h; exact Ledger.outside_withHistory _ _
    | k + 7 => cases h

/-- The second draw is due, and does not fit. -/
theorem lastCarry_due :
    (lastCarry.ledger 7).outcome.toOption.map (fun p => (p.1, p.2.2.2))
        = some (⟨2, 185, 335, 335, 0⟩, ⟨0, 0, 9223372036854775808⟩) ∧
      ((lastCarry.ledger 7).load .treasury .treasury).toOption
        = some ⟨0, 0, 9223372036854775808, 0⟩ ∧
      ∀ k ≤ 7, ∀ p ∈ (lastCarry.ledger k).changed,
        ∀ w ∈ p.2.contents.wallet? (lastCarry.ledger k).known, w.amount < Amount.limit := by
  decide +kernel

/-- After the last event of the run nothing changes. -/
theorem lastCarry_ledger (k : Nat) : lastCarry.ledger k = lastCarry.ledger (min k 7) := by
  rcases Nat.le_total k 7 with hle | hge
  · rw [Nat.min_eq_left hle]
  · rw [Nat.min_eq_right hge]
    have hlast : lastCarry.events.length = 7 := rfl
    unfold Run.ledger
    rw [List.take_of_length_le (hlast.trans_le hge), List.take_of_length_le hlast.le]

/-- A pool can be too large to be carried on once more. -/
theorem not_always_recorded :
    ¬∀ run : Run Authentic Ledger.Outside,
      (∀ k owner, (run.ledger k).balance (.wallet owner .rng) < Amount.limit) →
      ∀ k slot b config resolved t, (run.ledger k).Due slot b config resolved →
        (run.ledger k).load .treasury .treasury = .ok t →
        ∃ t', t.record resolved.2 = .ok t' := by
  intro hall
  obtain ⟨houtcome, htreasury, hamounts⟩ := lastCarry_due
  obtain ⟨⟨b, config, resolved⟩, houtcome, hfigures⟩ := exists_of_toOption_map houtcome
  simp only [Prod.mk.injEq] at hfigures
  obtain ⟨rfl, hsplit⟩ := hfigures
  have hbalances : ∀ k owner, (lastCarry.ledger k).balance (.wallet owner .rng) < Amount.limit := by
    intro k owner
    rw [lastCarry_ledger k]
    exact Ledger.balance_lt (by decide) (hamounts _ (Nat.min_le_right k 7))
  obtain ⟨t', hrecord⟩ := hall lastCarry hbalances 7 335 _ config resolved _
    (Ledger.due_of_outcome houtcome (by decide)) (toOption_eq_some_iff.mp htreasury)
  obtain ⟨hroom, -⟩ := Treasury.record_ok hrecord
  have hcarried := hroom.carried
  rw [hsplit] at hcarried
  exact absurd hcarried (by decide)

end House

end DiceHouse
