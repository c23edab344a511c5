import DiceHouse.Proofs.House.Lifecycle
import DiceHouse.Proofs.Round.Payout
import DiceHouse.Proofs.SlotHistory

/-!
# Nothing is staked on a known roll

The board's windows come one after another. Stakes and bets are granted in the slots of the window
alone, and the roll is seeded by a slot from the window's end on: that is where `Board.advance` puts
the seed slot, `Board.rearm` only puts it off, since the window has closed by then, and the slot
history finds no older slot than it is asked for. This needs nothing of the slots in which the house
is called but what each call checks.
-/

namespace DiceHouse

namespace Board

variable {b b' b'' : Board}

/-- The window is not empty, and the roll is seeded no sooner than at its end. -/
structure Timed (b : Board) : Prop where
  nonempty : b.start < b.finish
  seeded : b.finish ≤ b.seedSlot

/-- The window is the same, or a later round's window that begins after it. -/
inductive Later (b b' : Board) : Prop where
  | same (hround : b'.round = b.round) (hstart : b'.start = b.start)
    (hfinish : b'.finish = b.finish)
  | after (hround : b.round < b'.round) (hstart : b.finish < b'.start)

theorem Later.refl (b : Board) : b.Later b := .same rfl rfl rfl

theorem Later.trans (h : b.Later b') (h' : b'.Later b'') (ht : b'.Timed) : b.Later b'' := by
  -- two steps forward go past the window in the middle, which is not empty
  have hnonempty := ht.nonempty
  cases h with
  | same hround hstart hfinish =>
    cases h' with
    | same hround' hstart' hfinish' =>
      exact .same (hround'.trans hround) (hstart'.trans hstart) (hfinish'.trans hfinish)
    | after hround' hstart' => exact .after (by omega) (by omega)
  | after hround hstart =>
    cases h' with
    | same hround' hstart' _ => exact .after (by omega) (by omega)
    | after hround' hstart' => exact .after (by omega) (by omega)

end Board

namespace Ledger

/-- The settings in force are sound, and the board is timed. -/
structure Timed (l : Ledger) : Prop where
  settings : ∀ config, l.load .settings .settings = .ok config → config.Sound
  board : ∀ b, l.load .board .board = .ok b → b.Timed

end Ledger

namespace House

variable {accounts : List Access} {l m : Ledger} {slot n : Nat}

/-! ## One instruction -/

/-- What a granted instruction is to the board and to the settings. -/
inductive BoardMove (l m : Ledger) : Prop where
  | same (hboard : m.load .board .board = l.load .board .board)
    (hsettings : m.load .settings .settings = l.load .settings .settings) : BoardMove l m
  | opened {slot : Nat} {accounts : List Access} (g : Operation.Opening slot accounts l m)
  | configured {new : Settings Address} {accounts : List Access}
    (g : Operation.Configuration new accounts l m)
  | rearmed {slot : Nat} {accounts : List Access} (g : Operation.Rearming slot accounts l m)
  | advanced {slot : Nat} {accounts : List Access} (g : Operation.Resolution slot accounts l m)

theorem Granted.boardMove (g : Granted accounts l m) : BoardMove l m := by
  cases g with
  | opening g => exact .opened g
  | configuration g => exact .configured g
  | stake g =>
    exact .same (g.records _ _ (by simp) (by simp) (by simp))
      (g.records _ _ (by simp) (by simp) (by simp))
  | rearming g => exact .rearmed g
  | resolution g => exact .advanced g
  | claim g =>
    exact .same (g.records _ _ (by simp) (by simp) (by simp))
      (g.records _ _ (by simp) (by simp) (by simp))
  | bet g =>
    exact .same (g.records _ _ (by simp) (by simp) (by simp))
      (g.records _ _ (by simp) (by simp) (by simp))
  | settlement g =>
    exact .same ((g.rest _ (by simp) (by simp)).load _) ((g.rest _ (by simp) (by simp)).load _)
  | advance g => exact .same ((g.rest _ (by simp)).load _) ((g.rest _ (by simp)).load _)
  | collection g => exact .same (g.records _ _ (by simp)) (g.records _ _ (by simp))
  | funding g =>
    exact .same (g.records _ _ (by simp) (by simp)) (g.records _ _ (by simp) (by simp))
  | forfeiture g =>
    exact .same ((g.rest _ (by simp) (by simp)).load _) ((g.rest _ (by simp) (by simp)).load _)

theorem timed_opening (g : Operation.Opening slot accounts l m) : g.board.Timed := by
  have h := g.first
  unfold Operation.firstBoard at h
  simp only [bind_eq_ok_iff, Amount.add_eq_ok_iff, pure_eq_ok_iff] at h
  obtain ⟨finish, ⟨-, rfl⟩, hb⟩ := h
  rw [← hb]
  exact ⟨Nat.lt_add_of_pos_right (by decide), Nat.le_refl _⟩

/-- A new seed slot lies ahead of a slot in which the window had closed. -/
theorem timed_rearming (g : Operation.Rearming slot accounts l m) (ht : g.board.Timed) :
    g.rearmed.Timed ∧ g.board.Later g.rearmed := by
  obtain ⟨hround, -⟩ := Board.rearm_ok g.rearm
  obtain ⟨hstart, hfinish, hseed⟩ := Board.rearm_window g.rearm
  have hnonempty := ht.nonempty
  have hclosed := g.isClosed
  exact ⟨⟨by omega, by omega⟩, .same hround hstart hfinish⟩

/-- The next window opens after a slot in which the last had closed. -/
theorem timed_resolution (g : Operation.Resolution slot accounts l m) (hs : g.settings.Sound) :
    g.advanced.emptied.Timed ∧ g.board.Later g.advanced.emptied := by
  obtain ⟨hround, -⟩ := Board.advance_ok g.advance
  obtain ⟨hstart, hfinish, hseed⟩ := Board.advance_window g.advance
  obtain ⟨-, -, -, hduration, -⟩ := hs
  have hclosed := g.isClosed
  have hround : g.advanced.round = g.board.round + 1 := hround
  have hlater : g.board.finish < g.advanced.start := by
    rw [hstart, Board.intermission]
    omega
  exact ⟨⟨show g.advanced.start < g.advanced.finish by omega, hseed.ge⟩,
    .after (show g.board.round < g.advanced.round by omega) hlater⟩

theorem BoardMove.timed (h : BoardMove l m) (hl : l.Timed) : m.Timed := by
  cases h with
  | same hboard hsettings =>
    exact ⟨fun config hc => hl.settings config (hsettings.symm.trans hc),
      fun b hb => hl.board b (hboard.symm.trans hb)⟩
  | opened g =>
    refine ⟨fun config hc => ?_, fun b hb => ?_⟩
    · cases g.settings_after.symm.trans hc
      exact Settings.sound_initial _
    · cases g.board_after.symm.trans hb
      exact timed_opening g
  | configured g =>
    refine ⟨fun config hc => ?_, fun b hb => hl.board b ?_⟩
    · cases g.settings_after.symm.trans hc
      exact g.sound
    · rw [← (g.rest .board (by simp)).load]
      exact hb
  | rearmed g =>
    refine ⟨fun config hc => hl.settings config ?_, fun b hb => ?_⟩
    · rw [← (g.rest .settings (by simp)).load]
      exact hc
    · cases g.board_after.symm.trans hb
      exact (timed_rearming g (hl.board _ g.board_load)).1
  | advanced g =>
    refine ⟨fun config hc => hl.settings config ?_, fun b hb => ?_⟩
    · rw [← g.records .settings .settings (by simp) (by simp) (by simp) (by simp) (by simp)]
      exact hc
    · cases g.board_after.symm.trans hb
      exact (timed_resolution g (hl.settings _ g.settings_load)).1

/-- The board stays, and its window stays or is followed by a later one. -/
theorem BoardMove.later {b : Board} (h : BoardMove l m) (hl : l.Timed)
    (hb : l.load .board .board = .ok b) : ∃ b', m.load .board .board = .ok b' ∧ b.Later b' := by
  cases h with
  | same hboard => exact ⟨b, hboard.trans hb, .refl b⟩
  | opened g => exact absurd hb (g.board_absent b)
  | configured g => exact ⟨b, ((g.rest .board (by simp)).load _).trans hb, .refl b⟩
  | rearmed g =>
    cases g.board_load.symm.trans hb
    exact ⟨_, g.board_after, (timed_rearming g (hl.board _ hb)).2⟩
  | advanced g =>
    cases g.board_load.symm.trans hb
    exact ⟨_, g.board_after, (timed_resolution g (hl.settings _ g.settings_load)).2⟩

/-! ## Whole runs -/

theorem boardMove_outside (ho : l.Outside m) : BoardMove l m :=
  .same (ho.load (by simp [Address.seeds?]) _) (ho.load (by simp [Address.seeds?]) _)

theorem Reachable.timed {allowed : Instruction → Prop} (h : Reachable allowed Ledger.Outside l) :
    l.Timed := by
  refine h.induction (fun used => ⟨fun _ hc => (nomatch hc), fun _ hb => (nomatch hb)⟩) ?_ ?_
  · intro i l m _ hg hl
    exact hg.boardMove.timed hl
  · intro l m ho hl
    exact (boardMove_outside ho).timed hl

namespace Run

variable {allowed : Instruction → Prop}

/-- At some moment the board pointed at a round with this window. -/
def Window (run : Run allowed Ledger.Outside) (n start finish : Nat) : Prop :=
  ∃ k b, (run.ledger k).load .board .board = .ok b ∧ b.round = n ∧ b.start = start ∧
    b.finish = finish

/-- A stake on a round was granted in a slot. -/
def StakedAt (run : Run allowed Ledger.Outside) (n slot : Nat) : Prop :=
  ∃ k i amount square prediction s, run.events[k]? = some (.call slot i) ∧
    Request.decode i.data = some (.stake amount square prediction) ∧
    process slot i (run.ledger k) = .ok s ∧
    i.accounts[2]?.map Access.address = some (.round n)

/-- A bet was granted in a slot while the board pointed at a round. -/
def BetAt (run : Run allowed Ledger.Outside) (n slot : Nat) : Prop :=
  ∃ k i amount kindCode number s, run.events[k]? = some (.call slot i) ∧
    Request.decode i.data = some (.bet amount kindCode number) ∧
    process slot i (run.ledger k) = .ok s ∧ (run.ledger k).cursor? = some n

/-- From a moment to the next a round was resolved with the hash of an entry of the slot history. -/
structure DrawnWith (run : Run allowed Ledger.Outside) (n j : Nat) (e : SlotHistory.Entry) :
    Prop where
  listed : SlotHistory.Lists ((run.ledger j) .slotHashes).contents.toBytes e
  resolved : ∃ before settings resolved, (run.ledger j).load .round (.round n) = .ok before ∧
    (run.ledger j).load .settings .settings = .ok settings ∧
    before.resolve e.hash settings = .ok resolved ∧
    (run.ledger (j + 1)).load .round (.round n) = .ok resolved.1

variable {run : Run allowed Ledger.Outside} {j k start finish start' finish' n' : Nat}
  {b b' : Board} {r : Round Address}

theorem timed (run : Run allowed Ledger.Outside) (k : Nat) : (run.ledger k).Timed :=
  (run.reachable k).timed

theorem boardMove (run : Run allowed Ledger.Outside) (k : Nat) :
    BoardMove (run.ledger k) (run.ledger (k + 1)) := by
  rcases run.granted_or_outside k with ⟨accounts, hg⟩ | ho
  · exact hg.boardMove
  · exact boardMove_outside ho

theorem board_later (hjk : j ≤ k) (hb : (run.ledger j).load .board .board = .ok b) :
    ∃ b', (run.ledger k).load .board .board = .ok b' ∧ b.Later b' := by
  induction hjk with
  | refl => exact ⟨b, hb, .refl b⟩
  | @step k _ ih =>
    obtain ⟨b', hb', hlater⟩ := ih
    obtain ⟨b'', hb'', hlater'⟩ := (run.boardMove k).later (run.timed k) hb'
    exact ⟨b'', hb'', hlater.trans hlater' ((run.timed k).board b' hb')⟩

/-- Whenever two boards are looked at, one has the window of the other or a later one. -/
theorem board_total (hb : (run.ledger j).load .board .board = .ok b)
    (hb' : (run.ledger k).load .board .board = .ok b') : b.Later b' ∨ b'.Later b := by
  rcases Nat.le_total j k with hjk | hkj
  · obtain ⟨b'', hb'', hlater⟩ := board_later hjk hb
    cases hb''.symm.trans hb'
    exact .inl hlater
  · obtain ⟨b'', hb'', hlater⟩ := board_later hkj hb'
    cases hb''.symm.trans hb
    exact .inr hlater

theorem Window.unique (h : run.Window n start finish) (h' : run.Window n start' finish') :
    start = start' ∧ finish = finish' := by
  obtain ⟨j, b, hb, rfl, rfl, rfl⟩ := h
  obtain ⟨k, b', hb', hround, rfl, rfl⟩ := h'
  rcases board_total hb hb' with (⟨-, hs, hf⟩ | ⟨hlt, -⟩) | (⟨-, hs, hf⟩ | ⟨hlt, -⟩)
  · exact ⟨hs.symm, hf.symm⟩
  · omega
  · exact ⟨hs, hf⟩
  · omega

/-- The window of a later round begins when that of an earlier one is over. -/
theorem Window.lt (h : run.Window n start finish) (h' : run.Window n' start' finish')
    (hn : n < n') : finish < start' := by
  obtain ⟨j, b, hb, rfl, rfl, rfl⟩ := h
  obtain ⟨k, b', hb', rfl, rfl, rfl⟩ := h'
  rcases board_total hb hb' with (⟨hround, -, -⟩ | ⟨-, hstart⟩) | (⟨hround, -, -⟩ | ⟨hlt, -⟩)
  · omega
  · exact hstart
  · omega
  · omega

theorem mem_of_isOpen {slot : Nat} (h : b.isOpen slot = true) :
    b.start ≤ slot ∧ slot < b.finish := by
  simpa [Board.isOpen] using h

/-- Stakes are granted in the round's window. -/
theorem StakedAt.window (h : run.StakedAt n slot) :
    ∃ start finish, run.Window n start finish ∧ start ≤ slot ∧ slot < finish := by
  obtain ⟨k, i, amount, square, prediction, s, -, hdecode, hp, hround⟩ := h
  obtain ⟨g⟩ := stake_of_process hdecode hp
  have hlisted := g.round_listed
  rw [Access.address_unify, hround] at hlisted
  cases hlisted
  exact ⟨_, _, ⟨k, g.board, g.board_load, rfl, rfl, rfl⟩, mem_of_isOpen g.isOpen⟩

/-- Bets are granted in the window of the round that the board points at. -/
theorem BetAt.window (h : run.BetAt n slot) :
    ∃ start finish, run.Window n start finish ∧ start ≤ slot ∧ slot < finish := by
  obtain ⟨k, i, amount, kindCode, number, s, -, hdecode, hp, hcursor⟩ := h
  obtain ⟨spot, ⟨g⟩⟩ := bet_of_process hdecode hp
  rw [Ledger.cursor?_of_load g.board_load] at hcursor
  cases hcursor
  exact ⟨_, _, ⟨k, g.board, g.board_load, rfl, rfl, rfl⟩, mem_of_isOpen g.isOpen⟩

/-- A round is drawn with the hash of a slot from the end of its window on. -/
theorem exists_drawnWith (hr : (run.ledger k).load .round (.round n) = .ok r)
    (hresolved : r.isResolved = true) :
    ∃ j < k, ∃ e start finish, run.DrawnWith n j e ∧ r.seed = e.hash ∧
      run.Window n start finish ∧ finish ≤ e.slot := by
  obtain ⟨j, hj, slot, accounts, g, rfl⟩ := run.exists_resolution hr hresolved
  -- the history lists the hash with a slot that is not before the seed slot of that moment
  obtain ⟨e, hlisted, hslot, hhash⟩ := SlotHistory.exists_lists_of_found g.found
  have hseeded := ((run.timed j).board _ g.board_load).seeded
  have hresolve := g.resolve
  rw [← hhash] at hresolve
  refine ⟨j, hj, e, g.board.start, g.board.finish,
    ⟨hlisted, g.round, g.settings, g.resolved, g.round_load, g.settings_load, hresolve,
      g.round_after⟩, ?_, ⟨j, g.board, g.board_load, rfl, rfl, rfl⟩, hseeded.trans hslot⟩
  obtain ⟨square, hdrawn⟩ := Round.resolve_ok g.resolve
  obtain ⟨⟨jackpotWinner, totalClaimed, hkept⟩, -⟩ :=
    run.resolved_kept hj g.round_after hdrawn.isResolved
  cases hr.symm.trans hkept
  exact Round.seed_of_resolve hresolve

end Run

/-- No stake and no bet is granted once its roll can be known. In every run the board's window is
not empty and its seed slot is not before the window's end, however often the seed slot was put off.
A round that is drawn has a window, and was drawn with the hash of a slot that the history listed,
from the window's end on and so after every slot in which a stake on it was granted, or a bet while
the board pointed at it: those are in the window. And the windows of rounds are one each, in order,
with a pause in between. -/
theorem no_late_stakes {allowed : Instruction → Prop} (run : Run allowed Ledger.Outside) :
    (∀ k b, (run.ledger k).load .board .board = .ok b →
      b.start < b.finish ∧ b.finish ≤ b.seedSlot) ∧
    (∀ k n r, (run.ledger k).load .round (.round n) = .ok r → r.isResolved = true →
      ∃ j < k, ∃ e start finish, run.DrawnWith n j e ∧ r.seed = e.hash ∧
        run.Window n start finish ∧ finish ≤ e.slot ∧
        ∀ slot, run.StakedAt n slot ∨ run.BetAt n slot → slot < e.slot) ∧
    (∀ n slot, run.StakedAt n slot ∨ run.BetAt n slot →
      ∃ start finish, run.Window n start finish ∧ start ≤ slot ∧ slot < finish) ∧
    (∀ n start finish start' finish', run.Window n start finish → run.Window n start' finish' →
      start = start' ∧ finish = finish') ∧
    ∀ n n' start finish start' finish', run.Window n start finish → run.Window n' start' finish' →
      n < n' → finish < start' := by
  have hwindow : ∀ n slot, run.StakedAt n slot ∨ run.BetAt n slot →
      ∃ start finish, run.Window n start finish ∧ start ≤ slot ∧ slot < finish := by
    rintro n slot (hstake | hbet)
    · exact hstake.window
    · exact hbet.window
  refine ⟨fun k b hb => ?_, fun k n r hr hresolved => ?_, hwindow,
    fun n start finish start' finish' h h' => h.unique h',
    fun n n' start finish start' finish' h h' hn => h.lt h' hn⟩
  · have ht := (run.timed k).board b hb
    exact ⟨ht.nonempty, ht.seeded⟩
  · obtain ⟨j, hj, e, start, finish, hdrawn, hseed, hown, hle⟩ :=
      run.exists_drawnWith hr hresolved
    refine ⟨j, hj, e, start, finish, hdrawn, hseed, hown, hle, fun slot hslot => ?_⟩
    obtain ⟨start', finish', hin, -, hlt⟩ := hwindow n slot hslot
    obtain ⟨-, rfl⟩ := hown.unique hin
    exact hlt.trans_le hle

/-- The seed slot of a first round was put off once, and the round was drawn with the hash of a slot
after that of the stake. -/
theorem no_late_stakes_firstClaim :
    firstClaim.StakedAt 1 1 ∧ firstClaim.Window 1 0 150 ∧
      (∃ b, (firstClaim.ledger 6).load .board .board = .ok b ∧ b.seedSlot = 705 ∧
        b.finish ≤ b.seedSlot) ∧
      ∃ r, ∃ e : SlotHistory.Entry, (firstClaim.ledger 8).load .round (.round 1) = .ok r ∧
        r.seed = e.hash ∧ 150 ≤ e.slot ∧ 1 < e.slot := by
  obtain ⟨hboards, hstake, hpaid⟩ := firstClaim_moments
  simp only [List.map_cons, List.map_nil, List.cons.injEq, and_true,
    toOption_eq_some_iff] at hboards
  obtain ⟨hb₂, hb₆⟩ := hboards
  obtain ⟨s, hs⟩ := Option.isSome_iff_exists.mp hstake
  have hstaked : firstClaim.StakedAt 1 1 :=
    ⟨2, _, 100, 26, 0, s, rfl, rfl, toOption_eq_some_iff.mp hs, rfl⟩
  have hwindow : firstClaim.Window 1 0 150 := ⟨2, _, hb₂, rfl, rfl, rfl⟩
  obtain ⟨_, _, claim, hn, -, -⟩ := Run.exists_claim hpaid
  have hr := claim.round_load
  rw [hn] at hr
  obtain ⟨htimed, hdrawn, -, hunique, -⟩ := no_late_stakes firstClaim
  obtain ⟨j, -, e, start, finish, -, hseed, hown, hle, hlate⟩ :=
    hdrawn 8 1 _ hr (Round.isResolved_of_payout claim.payout_eq)
  obtain ⟨-, rfl⟩ := hunique 1 _ _ _ _ hown hwindow
  exact ⟨hstaked, hwindow, ⟨_, hb₆, rfl, (htimed 6 _ hb₆).2⟩, _, e, hr, hseed, hle,
    hlate 1 (.inl hstaked)⟩

end House

end DiceHouse
