import DiceHouse.Proofs.House.Windows

/-!
# Rounds succeed each other

Once the house is open there are the rounds from 1 to the one that the board points at, and that one
alone waits for its draw. A draw opens the next round in the same instruction and hands it what is
left of the pool, so nothing is left waiting on the board, and a resolution that only puts the seed
slot off touches no round at all. The table takes the rolls of drawn rounds, and the seats follow
the table.

`Ledger.Succession` is what the records say at one moment, and `Run.Splits` how a round's pool was
split when it was drawn. What was handed to a round stays with it, so at any later moment each round
says what the draw of the round before it left over, under the settings that were in force then.
-/

namespace DiceHouse

/-- The records of an open house. -/
structure Ledger.Succession (l : Ledger) (b : Board) (t : Table) : Prop where
  board : l.load .board .board = .ok b
  table : l.load .table .table = .ok t
  rounds : ∀ n, (∃ r, l.load .round (.round n) = .ok r) ↔ 1 ≤ n ∧ n ≤ b.round
  drawn : ∀ n r, l.load .round (.round n) = .ok r → r.id = n ∧ (r.isResolved = true ↔ n ≠ b.round)
  emptied : b.carryover = 0
  first : ∀ r, l.load .round (.round 1) = .ok r → r.carryIn = 0
  behind : t.epoch + 1 ≤ b.round
  seats : ∀ o s, l.load .seat (.seat o) = .ok s → s.epoch ≤ t.epoch

namespace House

variable {accounts : List Access} {l m : Ledger} {n : Nat} {r : Round Address}

/-! ## One instruction -/

/-- What a round was handed stays with it. -/
theorem RoundMove.carryIn {label : Option (Address × Nat)} (h : RoundMove accounts l m n label)
    (hr : l.load .round (.round n) = .ok r) :
    ∃ r', m.load .round (.round n) = .ok r' ∧ r'.carryIn = r.carryIn := by
  cases h with
  | same hround => exact ⟨r, hround.trans hr, rfl⟩
  | opened habsent => exact absurd hr (habsent r)
  | staked g hn =>
    subst hn
    cases g.round_load.symm.trans hr
    obtain ⟨_, _, -, -, -, -, -, -, -, hround, -⟩ := Round.stake_ok g.stake
    refine ⟨_, g.round_after, ?_⟩
    rw [hround]
  | drawn g hn =>
    subst hn
    cases g.round_load.symm.trans hr
    obtain ⟨_, hdrawn⟩ := Round.resolve_ok g.resolve
    exact ⟨_, g.round_after, hdrawn.carryIn⟩
  | cashed g hn =>
    subst hn
    cases g.round_load.symm.trans hr
    exact ⟨_, g.round_after, rfl⟩

/-- Nothing is left waiting on the board: what a draw puts there goes into the next round. -/
theorem BoardMove.emptied (h : BoardMove l m)
    (hl : ∀ b, l.load .board .board = .ok b → b.carryover = 0) (b : Board)
    (hb : m.load .board .board = .ok b) : b.carryover = 0 := by
  cases h with
  | same hboard => exact hl b (hboard.symm.trans hb)
  | opened g =>
    cases g.board_after.symm.trans hb
    exact Operation.carryover_firstBoard g.first
  | configured g =>
    refine hl b ?_
    rw [← (g.rest .board (by simp)).load]
    exact hb
  | rearmed g =>
    cases g.board_after.symm.trans hb
    obtain ⟨-, hcarryover⟩ := Board.rearm_ok g.rearm
    rw [hcarryover]
    exact hl _ g.board_load
  | advanced g =>
    cases g.board_after.symm.trans hb
    rfl

/-! ## Whole runs -/

namespace Run

variable {allowed : Instruction → Prop}

/-- The house was opened between a moment and the next. -/
def OpenedAt (run : Run allowed Ledger.Outside) (j : Nat) : Prop :=
  ∃ slot i s, run.events[j]? = some (.call slot i) ∧
    Request.decode i.data = some .openHouse ∧ process slot i (run.ledger j) = .ok s

/-- Between a moment and the next a round was drawn under these settings, and its pool split so. -/
structure Splits (run : Run allowed Ledger.Outside) (n i : Nat) (config : Settings Address)
    (split : Split) : Prop where
  settings : (run.ledger i).load .settings .settings = .ok config
  resolved : ∃ seed before after, (run.ledger i).load .round (.round n) = .ok before ∧
    before.resolve seed config = .ok (after, split) ∧
    (run.ledger (i + 1)).load .round (.round n) = .ok after

variable {run : Run allowed Ledger.Outside} {i j k : Nat} {b : Board} {next : Round Address}

theorem OpenedAt.opening (h : run.OpenedAt j) :
    ∃ slot accounts,
      Nonempty (Operation.Opening slot accounts (run.ledger j) (run.ledger (j + 1))) := by
  obtain ⟨slot, i, s, hevent, hdecode, hp⟩ := h
  rw [ledger_of_process hevent hp]
  exact ⟨slot, _, opening_of_process hdecode hp⟩

theorem board_emptied (run : Run allowed Ledger.Outside) (k : Nat) :
    ∀ b, (run.ledger k).load .board .board = .ok b → b.carryover = 0 := by
  induction k with
  | zero =>
    intro b hb
    rw [ledger_zero] at hb
    cases hb
  | succ k ih => exact (run.boardMove k).emptied ih

theorem carryIn_kept (hjk : j ≤ k) (hr : (run.ledger j).load .round (.round n) = .ok r) :
    ∃ r', (run.ledger k).load .round (.round n) = .ok r' ∧ r'.carryIn = r.carryIn := by
  induction hjk with
  | refl => exact ⟨r, hr, rfl⟩
  | @step k _ ih =>
    obtain ⟨r', hr', hcarryIn⟩ := ih
    obtain ⟨accounts, hmove⟩ := run.roundMove n k
    obtain ⟨r'', hr'', hcarryIn'⟩ := hmove.carryIn hr'
    exact ⟨r'', hr'', hcarryIn'.trans hcarryIn⟩

/-- From its opening on the house stays open, and its records say so. -/
theorem OpenedAt.succession (h : run.OpenedAt j) (hjk : j < k) :
    ∃ b t, (run.ledger k).Succession b t := by
  obtain ⟨slot, accounts, ⟨g⟩⟩ := h.opening
  obtain ⟨b, hb, -⟩ := run.board_later hjk g.board_after
  obtain ⟨r₁, hr₁, hcarryIn⟩ := run.carryIn_kept hjk g.round_after
  obtain ⟨t, rolls, hu⟩ := (run.inStep k).underway_of_board hb
  have hbehind : t.epoch + 1 ≤ b.round := by
    rw [hu.follows.epoch]
    exact hu.behind
  have hpos : 1 ≤ b.round := Nat.one_le_of_lt hu.behind
  refine ⟨b, t, {
    board := hb, table := hu.table
    rounds := fun n => hu.exists_iff hpos
    drawn := fun n r hr => ⟨(run.inStep k).id_of_load hr, hu.isResolved_iff hpos hr⟩
    emptied := run.board_emptied k b hb
    first := fun r hr => ?_
    behind := hbehind
    seats := fun o s hs => (hu.seats o s hs).2 }⟩
  cases hr₁.symm.trans hr
  exact hcarryIn

/-- A round is drawn once. -/
theorem Splits.unique {config config' : Settings Address} {split split' : Split}
    (h : run.Splits n i config split) (h' : run.Splits n j config' split') : i = j := by
  -- a round that was drawn before is not drawn again
  have hnever : ∀ {i j config config' split split'}, run.Splits n i config split →
      run.Splits n j config' split' → ¬i < j := by
    intro i j config config' split split' h h' hlt
    obtain ⟨seed, before, after, -, hresolve, hafter⟩ := h.resolved
    obtain ⟨seed', before', after', hbefore', hresolve', -⟩ := h'.resolved
    obtain ⟨square, hdrawn⟩ := Round.resolve_ok hresolve
    obtain ⟨square', hdrawn'⟩ := Round.resolve_ok hresolve'
    obtain ⟨⟨jackpotWinner, totalClaimed, hkept⟩, -⟩ :=
      run.resolved_kept hlt hafter hdrawn.isResolved
    cases hbefore'.symm.trans hkept
    have hwinner : after.winner = none := hdrawn'.open_before
    rw [show after.winner = some square.val from hdrawn.winner] at hwinner
    cases hwinner
  exact Nat.le_antisymm (Nat.le_of_not_lt (hnever h' h)) (Nat.le_of_not_lt (hnever h h'))

/-- Where there is a next round, the round was drawn. -/
theorem isResolved_of_next (hr : (run.ledger k).load .round (.round n) = .ok r)
    (hnext : (run.ledger k).load .round (.round (n + 1)) = .ok next) : r.isResolved = true := by
  rcases run.inStep k with hshut | ⟨current, t, rolls, hu⟩
  · have hdraw := Ledger.draw?_of_load hr
    rw [hshut.draws n] at hdraw
    cases hdraw
  · have hpos : 1 ≤ current := Nat.one_le_of_lt hu.behind
    have hle := ((hu.exists_iff hpos).mp ⟨next, hnext⟩).2
    exact (hu.isResolved_iff hpos hr).mpr (by omega)

/-- A round was handed what the draw of the round before it left over. -/
theorem exists_splits (hr : (run.ledger k).load .round (.round n) = .ok r)
    (hnext : (run.ledger k).load .round (.round (n + 1)) = .ok next) :
    ∃ i < k, ∃ (config : Settings Address) (split : Split) (square : Square),
      run.Splits n i config split ∧ r.winner = some square.val ∧
      split.carried = (if r.staked.get square = 0 ∧ config.emptyPool = .carry then
        r.totalStaked + r.carryIn else 0) ∧
      next.carryIn = split.carried := by
  obtain ⟨i, hi, slot, accounts, g, rfl⟩ :=
    run.exists_resolution hr (isResolved_of_next hr hnext)
  obtain ⟨square, hdrawn⟩ := Round.resolve_ok g.resolve
  -- the round is still as it was drawn, and the next one has what it was opened with
  obtain ⟨⟨jackpotWinner, totalClaimed, hkept⟩, -⟩ :=
    run.resolved_kept hi g.round_after hdrawn.isResolved
  cases hr.symm.trans hkept
  obtain ⟨next', hnext', hcarryIn⟩ := run.carryIn_kept hi g.next_after
  cases hnext'.symm.trans hnext
  refine ⟨i, hi, g.settings, g.resolved.2, square,
    ⟨g.settings_load, g.seed, g.round, g.resolved.1, g.round_load, g.resolve, g.round_after⟩,
    hdrawn.winner, ?_, ?_⟩
  · dsimp only
    rw [hdrawn.staked, hdrawn.totalStaked, hdrawn.carryIn]
    exact Round.carried_of_resolve g.resolve hdrawn.winner
  · rw [hcarryIn]
    show g.board.carryover + g.resolved.2.carried = g.resolved.2.carried
    rw [run.board_emptied i g.board g.board_load, Nat.zero_add]

end Run

/-! ## A first pool that is carried on -/

/-- The admin stakes on a square, and the slot history comes to hold a hash that draws another. -/
def unlucky : Ledger :=
  (run provided [(2, Client.stake .admin 1 3 1000 0)]).withHistory
    [⟨149, Bytes.fill32 0⟩, ⟨150, Bytes.fill32 7⟩]

/-- Round 1 takes a stake and is drawn with a square on which nobody staked. -/
def firstCarry : Run Authentic Ledger.Outside where
  used := [.admin]
  events :=
    [.call 0 (Client.openHouse .admin), .other provided, .call 2 (Client.stake .admin 1 3 1000 0),
      .other unlucky, .call 150 resolveFirst]
  permitted k event h := by
    match k with
    | 0 => cases h; exact .of_first rfl (by decide)
    | 1 => cases h; exact Ledger.outside_withWallet _ _ _ rfl
    | 2 => cases h; exact .of_first rfl (by decide)
    | 3 => cases h; exact Ledger.outside_withHistory _ _
    | 4 => cases h; exact .of_first rfl (by decide)
    | k + 5 => cases h

theorem firstCarry_moments :
    (process 0 (Client.openHouse .admin) (firstCarry.ledger 0)).toOption.isSome = true ∧
      [1, 2].map (fun n => ((firstCarry.ledger 5).load .round (.round n)).toOption.map
        fun r => (r.totalStaked, r.carryIn)) = [some (1000, 0), some (0, 1000)] := by
  decide +kernel

/-- Rounds succeed each other. From its opening on the house has a board and a table, the rounds
from 1 to the one that the board points at are there and no others, each at its own number, and all
but that one were drawn; nothing waits on the board, round 1 was handed nothing, the table has taken
the rolls of rounds before the board's only, and no seat is ahead of the table. A round is drawn at
one moment. And whatever happened before and since, a round was handed what the draw of the round
before it left over: all that was staked on that round and what it had been handed itself, if nobody
staked on its winning square and the settings of that moment carry empty pools, and nothing
otherwise. -/
theorem rounds_succeed {allowed : Instruction → Prop} (run : Run allowed Ledger.Outside) :
    (∀ j k, run.OpenedAt j → j < k → ∃ b t, (run.ledger k).Succession b t) ∧
    (∀ n i i' config config' split split', run.Splits n i config split →
      run.Splits n i' config' split' → i = i') ∧
    ∀ k n r next, (run.ledger k).load .round (.round n) = .ok r →
      (run.ledger k).load .round (.round (n + 1)) = .ok next →
      ∃ i < k, ∃ (config : Settings Address) (split : Split) (square : Square),
        run.Splits n i config split ∧ r.winner = some square.val ∧
        split.carried = (if r.staked.get square = 0 ∧ config.emptyPool = .carry then
          r.totalStaked + r.carryIn else 0) ∧
        next.carryIn = split.carried :=
  ⟨fun _ _ h hjk => h.succession hjk, fun _ _ _ _ _ _ _ h h' => h.unique h',
    fun _ _ _ _ hr hnext => Run.exists_splits hr hnext⟩

/-- The stake of 1000 that nobody won is what the second round was handed. -/
theorem rounds_succeed_firstCarry :
    firstCarry.OpenedAt 0 ∧ (∃ b t, (firstCarry.ledger 5).Succession b t) ∧
      ∃ r next, (firstCarry.ledger 5).load .round (.round 1) = .ok r ∧
        (firstCarry.ledger 5).load .round (.round 2) = .ok next ∧ next.carryIn = 1000 ∧
        ∃ i < 5, ∃ (config : Settings Address) (split : Split) (square : Square),
          firstCarry.Splits 1 i config split ∧ split.carried = 1000 ∧
          r.winner = some square.val ∧ r.staked.get square = 0 ∧ config.emptyPool = .carry ∧
          ∀ i' config' split', firstCarry.Splits 1 i' config' split' → i' = i := by
  obtain ⟨hopen, hrounds⟩ := firstCarry_moments
  simp only [List.map_cons, List.map_nil, List.cons.injEq, and_true] at hrounds
  obtain ⟨r, hr, -⟩ := exists_of_toOption_map hrounds.1
  obtain ⟨next, hnext, hpair⟩ := exists_of_toOption_map hrounds.2
  have hcarryIn : next.carryIn = 1000 := congrArg Prod.snd hpair
  obtain ⟨s, hs⟩ := Option.isSome_iff_exists.mp hopen
  have hopened : firstCarry.OpenedAt 0 := ⟨0, _, s, rfl, rfl, toOption_eq_some_iff.mp hs⟩
  obtain ⟨hsuccession, honce, hhanded⟩ := rounds_succeed firstCarry
  obtain ⟨i, hi, config, split, square, hsplits, hwinner, hcarried, hnext'⟩ :=
    hhanded 5 1 r next hr hnext
  rw [hcarryIn] at hnext'
  -- something was handed on, so nobody staked on the square, and empty pools were carried
  have hempty : r.staked.get square = 0 ∧ config.emptyPool = .carry := by
    by_contra hc
    rw [if_neg hc, ← hnext'] at hcarried
    cases hcarried
  exact ⟨hopened, hsuccession 0 5 hopened (by decide), r, next, hr, hnext, hcarryIn, i, hi, config,
    split, square, hsplits, hnext'.symm, hwinner, hempty.1, hempty.2,
    fun i' config' split' h => honce 1 i' i config' config split' split h hsplits⟩

end House

end DiceHouse
