import DiceHouse.Proofs.House.Orders
import DiceHouse.Proofs.House.Staking
import DiceHouse.Proofs.House.Windows

/-!
# How long a round is paid out

A round is opened with the slot up to which its tickets are cashed in: a claim period after the end
of its window. Nothing moves that slot, neither a seed slot that is put off nor a late draw. So how
much time is left to the winners depends on when the round is drawn: a claim is refused as too late
exactly from the slot after the expiry on, be that before the draw or after it, and a ticket that
was not cashed in by then stays as it is for good.
-/

namespace DiceHouse

/-- The round at which the board points expires a claim period after the board's window. -/
def Ledger.Dated (l : Ledger) : Prop :=
  ∀ b r, l.load .board .board = .ok b → l.load .round (.round b.round) = .ok r →
    r.expiresAt = b.finish + Board.claimPeriod

namespace House

open Client

variable {accounts : List Access} {l m : Ledger} {slot n : Nat} {owner : Address}

/-! ## The expiry of the current round -/

theorem dated_opening (g : Operation.Opening slot accounts l m) : m.Dated := by
  intro b r hb hr
  cases g.board_after.symm.trans hb
  rw [Operation.round_firstBoard g.first, g.round_after] at hr
  cases hr
  exact (Amount.add_eq_ok_iff.mp g.expiry).2

theorem dated_stake {amount square prediction : Nat} (hl : l.Dated)
    (g : Operation.Stake slot amount square prediction accounts l m) : m.Dated := by
  intro b r hb hr
  rw [g.records .board .board (by simp) (by simp) (by simp), g.board_load] at hb
  cases hb
  cases g.round_after.symm.trans hr
  obtain ⟨_, _, -, -, -, -, -, -, -, hround, -⟩ := Round.stake_ok g.stake
  rw [hround]
  show g.round.expiresAt = g.board.finish + Board.claimPeriod
  exact hl _ _ g.board_load g.round_load

theorem dated_rearming (hl : l.Dated) (g : Operation.Rearming slot accounts l m) : m.Dated := by
  intro b r hb hr
  cases g.board_after.symm.trans hb
  obtain ⟨hround, -⟩ := Board.rearm_ok g.rearm
  obtain ⟨-, hfinish, -⟩ := Board.rearm_window g.rearm
  rw [hround, (g.rest _ (by simp)).load] at hr
  rw [hfinish]
  exact hl _ _ g.board_load hr

theorem dated_resolution (g : Operation.Resolution slot accounts l m) : m.Dated := by
  intro b r hb hr
  cases g.board_after.symm.trans hb
  have hround : g.advanced.emptied.round = g.board.round + 1 := (Board.advance_ok g.advance).1
  rw [hround, g.next_after] at hr
  cases hr
  exact (Amount.add_eq_ok_iff.mp g.expiry).2

theorem dated_claim (hl : l.Dated) (g : Operation.Claim slot accounts l m) : m.Dated := by
  intro b r hb hr
  rw [g.records .board .board (by simp) (by simp) (by simp)] at hb
  by_cases hround : b.round = g.ticket.round
  · rw [hround, g.round_after] at hr
    cases hr
    show g.round.expiresAt = b.finish + Board.claimPeriod
    exact hl b _ hb (hround ▸ g.round_load)
  · rw [g.records .round _ (by simpa using hround) (by simp) (by simp)] at hr
    exact hl b r hb hr

/-- Whatever is granted, the round at which the board points has the expiry that belongs to the
board's window. -/
theorem StakingMove.dated (h : StakingMove accounts l m) (hl : l.Dated) : m.Dated := by
  cases h with
  | same hboard hrounds _ =>
    intro b r hb hr
    rw [hboard] at hb
    rw [hrounds] at hr
    exact hl b r hb hr
  | opened g => exact dated_opening g
  | staked g => exact dated_stake hl g
  | rearmed g => exact dated_rearming hl g
  | drawn g => exact dated_resolution g
  | cashed g => exact dated_claim hl g

theorem Run.dated {allowed : Instruction → Prop} (run : Run allowed Ledger.Outside) (k : Nat) :
    (run.ledger k).Dated := by
  induction k with
  | zero =>
    rw [ledger_zero]
    exact fun b _ hb => (nomatch hb)
  | succ k ih =>
    obtain ⟨accounts, hmove⟩ := run.stakingMove k
    exact hmove.dated ih

/-! ## Late claims -/

/-- A claim on whose accounts nothing is wrong is refused as too late exactly after the expiry. -/
theorem claim_expired_iff (hready : (Order.claim owner n).Ready l) {r : Round Address}
    (hr : l.load .round (.round n) = .ok r) :
    process slot (Client.claim owner n) l = .error (.fault .roundExpired) ↔ r.expiresAt < slot := by
  have hdoes : Does (process slot (Client.claim owner n) l) (Deed.claim slot owner n l) :=
    process_does (o := .claim owner n) rfl trivial hready
  rw [hdoes.error_iff]
  constructor
  · intro hrefused
    by_contra htime
    obtain ⟨-, hne⟩ := refusedOnly_claim hready hr (Nat.not_lt.mp htime) _ hrefused
    exact hne rfl
  · exact claim_of_lt hready hr

namespace Run

variable {allowed : Instruction → Prop} {run : Run allowed Ledger.Outside} {j k : Nat}
  {r : Round Address}

/-- From a moment to the next a round was drawn, by a request to resolve it that was granted in a
slot. -/
structure DrawnAt (run : Run allowed Ledger.Outside) (n j slot : Nat) (r : Round Address) :
    Prop where
  granted : ∃ i s, run.events[j]? = some (.call slot i) ∧
    Request.decode i.data = some .resolve ∧ process slot i (run.ledger j) = .ok s
  before : ∃ waiting, (run.ledger j).load .round (.round n) = .ok waiting ∧
    waiting.isResolved = false
  after : (run.ledger (j + 1)).load .round (.round n) = .ok r
  resolved : r.isResolved = true

theorem DrawnAt.resolution (h : run.DrawnAt n j slot r) :
    ∃ accounts, ∃ g : Operation.Resolution slot accounts (run.ledger j) (run.ledger (j + 1)),
      g.board.round = n ∧ g.resolved.1 = r := by
  obtain ⟨i, s, hevent, hdecode, hp⟩ := h.granted
  obtain ⟨waiting, hbefore, hwaits⟩ := h.before
  have hafter := h.after
  have hresolved := h.resolved
  -- what leaves the round as it was has not drawn it
  have hchanged : (run.ledger (j + 1)).load .round (.round n)
      ≠ (run.ledger j).load .round (.round n) := by
    intro hc
    cases hafter.symm.trans (hc.trans hbefore)
    rw [hwaits] at hresolved
    cases hresolved
  rw [ledger_of_process hevent hp] at hafter hchanged ⊢
  rcases resolve_of_process hdecode hp with ⟨⟨g⟩⟩ | ⟨⟨g⟩⟩
  · exact absurd ((g.rest _ (by simp)).load _) hchanged
  · refine ⟨_, g, ?_⟩
    by_cases hn : g.board.round = n
    · subst hn
      exact ⟨rfl, Except.ok.inj (g.round_after.symm.trans hafter)⟩
    · by_cases hnext : n = g.board.round + 1
      · subst hnext
        exact absurd hbefore (g.next_absent _)
      · exact absurd (g.records _ _ (by simp) (by simpa using Ne.symm hn) (by simpa using hnext)
          (by simp) (by simp)) hchanged

/-- A call to resolve after which a round is drawn that was not drawn before has drawn it. -/
theorem drawnAt_of_event {i : Instruction} {waiting : Round Address}
    (hevent : run.events[j]? = some (.call slot i))
    (hdecode : Request.decode i.data = some .resolve)
    (hbefore : (run.ledger j).load .round (.round n) = .ok waiting)
    (hwaits : waiting.isResolved = false)
    (hafter : (run.ledger (j + 1)).load .round (.round n) = .ok r)
    (hresolved : r.isResolved = true) : run.DrawnAt n j slot r := by
  refine ⟨?_, ⟨waiting, hbefore, hwaits⟩, hafter, hresolved⟩
  cases hp : process slot i (run.ledger j) with
  | ok s => exact ⟨i, s, hevent, hdecode, hp⟩
  | error e =>
    -- a refused call leaves the round undrawn
    have hsame : run.ledger (j + 1) = run.ledger j := by
      rw [ledger_succ hevent]
      show step (run.ledger j) (slot, i) = run.ledger j
      unfold step
      rw [hp]
    rw [hsame, hbefore] at hafter
    cases hafter
    rw [hwaits] at hresolved
    cases hresolved

/-- Whoever cashes in a ticket between a moment and the next does so with a call in some slot. -/
theorem claim_of_cashed {amount : Nat} (h : run.cashed? n k = some (owner, amount)) :
    ∃ slot i, run.events[k]? = some (.call slot i) ∧
      ∃ g : Operation.Claim slot (Access.unify i.accounts) (run.ledger k) (run.ledger (k + 1)),
        g.ticket.round = n := by
  unfold cashed? told? at h
  split at h
  · next slot i hevent =>
    dsimp only [cashedWith?, reportOf] at h
    split at h
    · next request s hdecode hp =>
      refine ⟨slot, i, hevent, ?_⟩
      unfold cashedBy? at h
      split at h
      · next hclaim =>
        subst hclaim
        obtain ⟨g⟩ := claim_of_process hdecode hp
        rw [ledger_of_process hevent hp]
        refine ⟨g, ?_⟩
        obtain ⟨o, ho, -⟩ := Option.map_eq_some_iff.mp h
        unfold Access.cashes? at ho
        rw [← Access.address_unify i.accounts 0, ← Access.address_unify i.accounts 1,
          g.signer_listed, g.round_listed] at ho
        dsimp only at ho
        split at ho
        · next hn => exact hn
        · cases ho
      · cases h
    · cases h
  · cases h

/-- A ticket for a drawn round goes only to be cashed in. -/
theorem cashed_of_ticket_ne (hr : (run.ledger k).load .round (.round n) = .ok r)
    (hresolved : r.isResolved = true)
    (hne : (run.ledger (k + 1)).load .ticket (.ticket owner n)
      ≠ (run.ledger k).load .ticket (.ticket owner n)) :
    ∃ amount, run.cashed? n k = some (owner, amount) := by
  obtain ⟨accounts, hmove⟩ := run.roundMove n k
  generalize run.cashed? n k = label at hmove ⊢
  cases hmove with
  | same _ htickets => exact absurd (htickets owner) hne
  | opened habsent => exact absurd hr (habsent r)
  | staked g hn =>
    subst hn
    cases g.round_load.symm.trans hr
    obtain ⟨_, _, -, hwaits, -⟩ := Round.stake_ok g.stake
    rw [Round.isResolved, hwaits] at hresolved
    cases hresolved
  | drawn g hn =>
    exact absurd (g.records _ _ (by simp) (by simp) (by simp) (by simp) (by simp)) hne
  | cashed g hn =>
    by_cases ho : owner = g.signer.address
    · exact ⟨g.amount, by rw [ho]⟩
    · exact absurd (g.records .ticket _ (by simp) (by simpa using fun hc => absurd hc ho) (by simp))
        hne

end Run

/-- A drawn round is paid out until a claim period after the end of its window, however often its
seed was put off and however late it was drawn. From the draw on, a claim on whose accounts nothing
is wrong is refused as too late exactly if its slot is after that; so every ticket that is cashed in
is cashed in by then. And nothing else takes a ticket away. -/
theorem paid_until_expiry {allowed : Instruction → Prop} (run : Run allowed Ledger.Outside)
    {n j slot : Nat} {drawn : Round Address} (h : run.DrawnAt n j slot drawn) :
    (∃ start finish, run.Window n start finish ∧ finish ≤ slot ∧
      drawn.expiresAt = finish + Board.claimPeriod) ∧
    ∀ k, j < k →
      (∀ owner later, (Order.claim owner n).Ready (run.ledger k) →
        (process later (Client.claim owner n) (run.ledger k) = .error (.fault .roundExpired) ↔
          drawn.expiresAt < later)) ∧
      (∀ owner amount, run.cashed? n k = some (owner, amount) →
        ∃ later i, run.events[k]? = some (.call later i) ∧ later ≤ drawn.expiresAt) ∧
      ∀ owner, (run.ledger (k + 1)).load .ticket (.ticket owner n)
          ≠ (run.ledger k).load .ticket (.ticket owner n) →
        ∃ amount, run.cashed? n k = some (owner, amount) := by
  constructor
  · obtain ⟨accounts, g, rfl, rfl⟩ := h.resolution
    refine ⟨g.board.start, g.board.finish, ⟨j, g.board, g.board_load, rfl, rfl, rfl⟩,
      g.isClosed, ?_⟩
    rw [(Round.seed_expiresAt_of_resolve g.resolve).2]
    exact run.dated j _ _ g.board_load g.round_load
  · intro k hk
    -- what was drawn is still there, with the expiry that it had
    obtain ⟨r, hr, hexpiry, hresolved⟩ : ∃ r, (run.ledger k).load .round (.round n) = .ok r ∧
        r.expiresAt = drawn.expiresAt ∧ r.isResolved = true := by
      obtain ⟨⟨jackpotWinner, totalClaimed, hkept⟩, -⟩ := run.resolved_kept hk h.after h.resolved
      exact ⟨_, hkept, rfl, h.resolved⟩
    rw [← hexpiry]
    refine ⟨fun owner later hready => claim_expired_iff hready hr, fun owner amount hcashed => ?_,
      fun owner hne => Run.cashed_of_ticket_ne hr hresolved hne⟩
    obtain ⟨later, i, hevent, g, rfl⟩ := Run.claim_of_cashed hcashed
    cases g.round_load.symm.trans hr
    exact ⟨later, i, hevent, g.inTime⟩

/-- Right after the first round is drawn, nothing that a claim of the admin is about is missing. -/
theorem firstClaim_drawn :
    ((firstClaim.ledger 7).load .round (.round 1)).toOption.map Round.isResolved = some false ∧
      ((firstClaim.ledger 8).load .round (.round 1)).toOption.map
        (fun r => (r.id, r.isResolved, r.expiresAt)) = some (1, true, 216150) ∧
      ((firstClaim.ledger 8).load .ticket (.ticket .admin 1)).toOption.map
        (fun t => (t.owner, t.round)) = some (.admin, 1) ∧
      ((firstClaim.ledger 8).load .treasury .treasury).toOption.isSome = true ∧
      ((firstClaim.ledger 8).wallet (.wallet .treasury .rng)).toOption
        = some { mint := .mint .rng, owner := .treasury, amount := 1090 } ∧
      ((firstClaim.ledger 8).wallet (.wallet .admin .rng)).toOption
        = some { mint := .mint .rng, owner := .admin, amount := 3910 } ∧
      ((firstClaim.ledger 8) .tokenProgram).executable = true := by
  decide +kernel

theorem paid_until_expiry_firstClaim :
    ∃ drawn, firstClaim.DrawnAt 1 7 710 drawn ∧ drawn.expiresAt = 216150 ∧
      (∃ start finish, firstClaim.Window 1 start finish ∧ finish ≤ 710 ∧
        drawn.expiresAt = finish + Board.claimPeriod) ∧
      process 710 (Client.claim .admin 1) (firstClaim.ledger 8) ≠ .error (.fault .roundExpired) ∧
      process 216151 (Client.claim .admin 1) (firstClaim.ledger 8)
        = .error (.fault .roundExpired) := by
  obtain ⟨hbefore, hafter, hticket, htreasury, hvault, htarget, hprogram⟩ := firstClaim_drawn
  obtain ⟨waiting, hwaiting, hopen⟩ := exists_of_toOption_map hbefore
  obtain ⟨drawn, hdrawn, hfigures⟩ := exists_of_toOption_map hafter
  simp only [Prod.mk.injEq] at hfigures
  obtain ⟨hid, hresolved, hexpiry⟩ := hfigures
  obtain ⟨t, ht, howned⟩ := exists_of_toOption_map hticket
  obtain ⟨treasury, htreasury⟩ := Option.isSome_iff_exists.mp htreasury
  have hat : firstClaim.DrawnAt 1 7 710 drawn :=
    Run.drawnAt_of_event rfl (by decide) hwaiting hopen hdrawn hresolved
  have hready : (Order.claim .admin 1).Ready (firstClaim.ledger 8) :=
    ⟨⟨t, ht, congrArg Prod.fst howned, congrArg Prod.snd howned⟩, ⟨drawn, hdrawn, hid⟩,
      ⟨treasury, toOption_eq_some_iff.mp htreasury, trivial⟩,
      ⟨_, toOption_eq_some_iff.mp hvault, rfl, rfl, by decide, by decide⟩,
      ⟨_, toOption_eq_some_iff.mp htarget, rfl, rfl, by decide, by decide⟩,
      by simpa [Ledger.Runs] using hprogram⟩
  obtain ⟨hwindow, hlater⟩ := paid_until_expiry firstClaim hat
  obtain ⟨hclaims, -⟩ := hlater 8 (by decide)
  refine ⟨drawn, hat, hexpiry, hwindow, ?_, ?_⟩
  · rw [Ne, hclaims .admin 710 hready, hexpiry]
    decide
  · rw [hclaims .admin 216151 hready, hexpiry]
    decide

/-- Nobody looks at the house for a day. Then the seed slot of the first round is put off, and there
are slots before and after the new one. -/
def overslept : Ledger :=
  (step outdated (216151, resolveFirst)).withHistory
    [⟨216154, Bytes.fill32 0⟩, ⟨216156, Bytes.fill32 7⟩]

/-- The first round is drawn when it has expired. -/
def lateDraw : Run Authentic Ledger.Outside where
  used := [.admin]
  events :=
    [.call 0 (Client.openHouse .admin), .other provided, .call 1 (Client.stake .admin 1 26 100 0),
      .call 2 (Client.stake .admin 1 3 1000 0), .other outdated,
      .call 216151 resolveFirst, .other overslept,
      .call 216157 resolveFirst, .call 216157 (Client.claim .admin 1)]
  permitted k event h := by
    match k with
    | 0 => cases h; exact .of_first rfl (by decide)
    | 1 => cases h; exact Ledger.outside_withWallet _ _ _ rfl
    | 2 => cases h; exact .of_first rfl (by decide)
    | 3 => cases h; exact .of_first rfl (by decide)
    | 4 => cases h; exact Ledger.outside_withHistory _ _
    | 5 => cases h; exact .of_first rfl (by decide)
    | 6 => cases h; exact Ledger.outside_withHistory _ _
    | 7 => cases h; exact .of_first rfl (by decide)
    | 8 => cases h; exact .of_first rfl (by decide)
    | k + 9 => cases h

theorem lateDraw_moments :
    ((lateDraw.ledger 7).load .round (.round 1)).toOption.map Round.isResolved = some false ∧
      ((lateDraw.ledger 8).load .round (.round 1)).toOption.map
        (fun r => (r.winner, r.staked.get ⟨26, by decide⟩, r.expiresAt))
          = some (some 26, 100, 216150) ∧
      refusal? (lateDraw.ledger 8) (216157, Client.claim .admin 1)
        = some (.fault .roundExpired) := by
  decide +kernel

/-- A draw may come too late for its winners. -/
theorem not_always_drawn_in_time :
    ¬∀ (run : Run Authentic Ledger.Outside) (n j slot : Nat) (drawn : Round Address)
      (square : Square), run.DrawnAt n j slot drawn → drawn.winner = some square.val →
        drawn.staked.get square ≠ 0 →
        slot ≤ drawn.expiresAt ∧ ∀ owner, process slot (Client.claim owner n) (run.ledger (j + 1))
          ≠ .error (.fault .roundExpired) := by
  intro hall
  obtain ⟨hbefore, hafter, hrefused⟩ := lateDraw_moments
  obtain ⟨waiting, hwaiting, hopen⟩ := exists_of_toOption_map hbefore
  obtain ⟨drawn, hdrawn, hfigures⟩ := exists_of_toOption_map hafter
  simp only [Prod.mk.injEq] at hfigures
  obtain ⟨hwinner, hstaked, -⟩ := hfigures
  have hat : lateDraw.DrawnAt 1 7 216157 drawn :=
    Run.drawnAt_of_event rfl (by decide) hwaiting hopen hdrawn
      (by rw [Round.isResolved, hwinner, Option.isSome_some])
  obtain ⟨-, hclaims⟩ := hall lateDraw 1 7 216157 drawn ⟨26, by decide⟩ hat hwinner
    (by rw [hstaked]; decide)
  exact hclaims .admin (process_of_refusal hrefused)

end House

end DiceHouse
