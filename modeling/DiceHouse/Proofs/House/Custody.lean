import DiceHouse.Client
import DiceHouse.Proofs.House
import DiceHouse.Proofs.Ledger.Census
import DiceHouse.Proofs.Round.Liability

/-!
# Custody of the staking rounds

On every ledger that a house can come to, the tokens in the treasury's purse cover the pool that
waits on the board and what all rounds owe, however many there are and whatever the settings were
when each was resolved. So no ticket is turned away for want of tokens.

A round stands with the tickets kept for it, which the census gathers. Three kinds of instruction
move them: a stake adds to one round and one ticket, a claim takes a ticket away, and a resolution
settles one round and starts the next with what it hands on.
-/

namespace DiceHouse

namespace Ledger

/-- The pool that waits for the next round. -/
def waiting (l : Ledger) : Nat :=
  match l.load .board .board with
  | .ok b => b.carryover
  | .error _ => 0

/-- What all rounds owe. -/
def owing (l : Ledger) : Nat := (l.rounds.map Round.liability).sum

/-- How many tokens the house has. -/
def tokens (l : Ledger) : Nat := l.balance (.wallet .treasury .rng)

/-- Every round stands with the tickets that are kept for it. -/
structure RoundsStand (l : Ledger) : Prop where
  standing : ∀ n r, l.load .round (.round n) = .ok r → r.id = n ∧ r.Standing (l.tickets n)
  unsold : ∀ n, (∀ r, l.load .round (.round n) ≠ .ok r) → l.tickets n = 0

variable {l m : Ledger} {n : Nat} {r r' : Round Address} {b : Board}

theorem waiting_of_load (h : l.load .board .board = .ok b) : l.waiting = b.carryover := by
  unfold waiting
  rw [h]

theorem waiting_congr (h : m.load .board .board = l.load .board .board) :
    m.waiting = l.waiting := by
  unfold waiting
  rw [h]

theorem owing_congr (h : ∀ k, m.load .round (.round k) = l.load .round (.round k)) :
    m.owing = l.owing := by
  unfold owing
  rw [rounds_congr h]

theorem owing_replace (h : ∀ k, k ≠ n → m.load .round (.round k) = l.load .round (.round k))
    (hl : l.load .round (.round n) = .ok r) (hm : m.load .round (.round n) = .ok r') :
    m.owing + r.liability = l.owing + r'.liability :=
  sum_rounds_replace _ h hl hm

theorem owing_insert (h : ∀ k, k ≠ n → m.load .round (.round k) = l.load .round (.round k))
    (hl : ∀ r, l.load .round (.round n) ≠ .ok r) (hm : m.load .round (.round n) = .ok r) :
    m.owing = l.owing + r.liability :=
  sum_rounds_insert _ h hl hm

/-- One round was written, and no ticket of another. -/
theorem RoundsStand.write (hl : l.RoundsStand)
    (h : ∀ k, k ≠ n → m.load .round (.round k) = l.load .round (.round k))
    (htickets : ∀ k, k ≠ n → m.tickets k = l.tickets k)
    (hm : m.load .round (.round n) = .ok r) (hid : r.id = n) (hr : r.Standing (m.tickets n)) :
    m.RoundsStand := by
  constructor
  case standing =>
    intro k s hs
    by_cases hk : k = n
    · subst hk
      cases hm.symm.trans hs
      exact ⟨hid, hr⟩
    · rw [h k hk] at hs
      rw [htickets k hk]
      exact hl.standing k s hs
  case unsold =>
    intro k habsent
    have hk : k ≠ n := fun hc => habsent r (hc ▸ hm)
    rw [htickets k hk]
    exact hl.unsold k fun s => h k hk ▸ habsent s

/-- A round was written where it was, and stands with the same tickets. -/
theorem RoundsStand.store (hl : l.RoundsStand) (hm : m = l.store .round (.round n) r')
    (hload : l.load .round (.round n) = .ok r) (hid : r'.id = n)
    (hr : r'.Standing (l.tickets n)) :
    m.RoundsStand ∧ m.owing + r.liability = l.owing + r'.liability := by
  have hround : m.load .round (.round n) = .ok r' := by
    rw [hm]
    exact load_store l .round _ _ (owner_of_load hload)
  have hrounds : ∀ k, k ≠ n → m.load .round (.round k) = l.load .round (.round k) := by
    intro k hk
    rw [hm, load_store_of_ne _ _ (by simpa using hk)]
  have htickets : ∀ k, m.tickets k = l.tickets k := by
    intro k
    refine tickets_congr fun p => ?_
    rw [hm, load_store_of_ne _ _ (by simp)]
  refine ⟨hl.write hrounds (fun k _ => htickets k) hround hid ?_,
    owing_replace hrounds hload hround⟩
  rw [htickets]
  exact hr

/-- Neither a round nor a ticket was written. -/
theorem RoundsStand.congr (hl : l.RoundsStand)
    (h : ∀ k, m.load .round (.round k) = l.load .round (.round k))
    (htickets : ∀ p k, m.load .ticket (.ticket p k) = l.load .ticket (.ticket p k)) :
    m.RoundsStand := by
  constructor
  case standing =>
    intro n r hr
    rw [tickets_congr fun p => htickets p n]
    exact hl.standing n r ((h n).symm.trans hr)
  case unsold =>
    intro n habsent
    rw [tickets_congr fun p => htickets p n]
    exact hl.unsold n fun r => h n ▸ habsent r

end Ledger

/-- The rounds stand, and the tokens cover what waits and what is owed. -/
structure Ledger.Custody (l : Ledger) : Prop extends l.RoundsStand where
  purse : l.Purse .treasury .rng
  cover : l.waiting + l.owing ≤ l.tokens

namespace House

variable {accounts : List Access} {l m : Ledger} {slot amount square prediction : Nat}

theorem custody_genesis (used : List Address) : (Ledger.genesis used).Custody where
  standing n r h := by cases h
  unsold n _ := rfl
  purse := Ledger.purse_of_isEmpty rfl
  cover := Nat.le_refl 0

/-- What leaves the board, the rounds and the tickets alone and takes no tokens keeps custody. -/
theorem custody_frame (h : l.Custody) (hboard : m.load .board .board = l.load .board .board)
    (hrounds : ∀ k, m.load .round (.round k) = l.load .round (.round k))
    (htickets : ∀ p k, m.load .ticket (.ticket p k) = l.load .ticket (.ticket p k))
    (htokens : l.Purse .treasury .rng → m.Purse .treasury .rng ∧ l.tokens ≤ m.tokens) :
    m.Custody := by
  obtain ⟨hp, hle⟩ := htokens h.purse
  refine ⟨h.congr hrounds htickets, hp, ?_⟩
  rw [Ledger.waiting_congr hboard, Ledger.owing_congr hrounds]
  exact h.cover.trans hle

/-! ## Each instruction -/

theorem custody_opening (h : l.Custody) (g : Operation.Opening slot accounts l m) : m.Custody := by
  have hrounds : ∀ k, k ≠ 1 → m.load .round (.round k) = l.load .round (.round k) := by
    intro k hk
    exact (g.rest _ (by simp) (by simp) (by simp) (by simpa using hk) (by simp)).load _
  have htickets : ∀ k, m.tickets k = l.tickets k := by
    intro k
    exact Ledger.tickets_congr fun p =>
      (g.rest _ (by simp) (by simp) (by simp) (by simp) (by simp)).load _
  have hpurse : Ledger.Agree l m (.wallet .treasury .rng) :=
    g.rest _ (by simp) (by simp) (by simp) (by simp) (by simp)
  refine ⟨h.write hrounds (fun k _ => htickets k) g.round_after rfl ?_, h.purse.of_agree hpurse, ?_⟩
  · rw [htickets 1, h.unsold 1 g.round_absent]
    exact .start _ _ _ _ _
  · have hcover := h.cover
    rw [Ledger.waiting_of_load g.board_after, Operation.carryover_firstBoard g.first,
      Ledger.owing_insert hrounds g.round_absent g.round_after, Round.liability_start,
      Ledger.tokens, hpurse.balance]
    unfold Ledger.tokens at hcover
    omega

/-- The round of a ticket that takes a stake stands with it, be it new or not, and the stake changes
no other ticket. -/
theorem standing_of_opened {n : Nat} {signer : Address} {r : Round Address}
    {ticket staked : Ticket Address} (h : r.Standing (l.tickets n)) (hopen : r.winner = none)
    (hopened : Operation.Opened l signer n ticket)
    (hframe : ∀ p, p ≠ signer → m.load .ticket (.ticket p n) = l.load .ticket (.ticket p n))
    (hm : m.load .ticket (.ticket signer n) = .ok staked) :
    ∃ rest, r.Standing (ticket ::ₘ rest) ∧ m.tickets n = staked ::ₘ rest := by
  have hof := Address.isTicketOf_ticket signer n
  cases hopened with
  | fresh habsent =>
    exact ⟨l.tickets n, h.addBlank hopen signer n,
      Ledger.kept_insert hof (Ledger.isTicketOf_frame hframe) habsent hm⟩
  | kept hload _ =>
    obtain ⟨rest, hl, hm'⟩ := Ledger.kept_replace hof (Ledger.isTicketOf_frame hframe) hload hm
    rw [Ledger.tickets, hl] at h
    exact ⟨rest, h, hm'⟩

theorem custody_stake (hauth : Access.Authentic accounts) (h : l.Custody)
    (g : Operation.Stake slot amount square prediction accounts l m) : m.Custody := by
  obtain ⟨hid, hstanding⟩ := h.standing _ _ g.round_load
  have hrounds : ∀ k, k ≠ g.board.round → m.load .round (.round k) = l.load .round (.round k) := by
    intro k hk
    exact g.records .round _ (by simpa using hk) (by simp) (by simp)
  have htickets : ∀ k, k ≠ g.board.round → m.tickets k = l.tickets k := by
    intro k hk
    exact Ledger.tickets_congr fun p =>
      g.records .ticket _ (by simp) (by simp [hid, hk]) (by simp)
  -- only an open round takes a new ticket without owing it anything
  obtain ⟨-, -, -, hopen, -⟩ := Round.stake_ok g.stake
  obtain ⟨rest, hstands, hkept⟩ := standing_of_opened hstanding hopen (hid ▸ g.opened)
    (fun p hp => g.records .ticket _ (by simp) (by simpa using fun hc => absurd hc hp) (by simp))
    (hid ▸ g.ticket_after)
  obtain ⟨hid', hstands', hliability⟩ := hstands.stake g.stake
  have howing := Ledger.owing_replace hrounds g.round_load g.round_after
  have hne : g.signer.address ≠ .treasury :=
    hauth.ne_of_seeds g.listed g.signed (by simp [Address.seeds?])
  obtain ⟨hp, hbal⟩ := g.purses .treasury .rng hne h.purse
  rw [if_pos rfl] at hbal
  refine ⟨h.write hrounds htickets g.round_after (hid'.trans hid) (hkept ▸ hstands'), hp, ?_⟩
  have hcover := h.cover
  rw [Ledger.waiting_congr (g.records .board _ (by simp) (by simp) (by simp))]
  unfold Ledger.tokens at hcover ⊢
  omega

theorem custody_rearming (h : l.Custody) (g : Operation.Rearming slot accounts l m) :
    m.Custody := by
  have hpurse : Ledger.Agree l m (.wallet .treasury .rng) := g.rest _ (by simp)
  have hrounds : ∀ k, m.load .round (.round k) = l.load .round (.round k) := by
    intro k
    exact (g.rest _ (by simp)).load _
  refine ⟨h.congr hrounds fun p k => (g.rest _ (by simp)).load _, h.purse.of_agree hpurse, ?_⟩
  have hcover := h.cover
  rw [Ledger.waiting_of_load g.board_load] at hcover
  rw [Ledger.waiting_of_load g.board_after, (Board.rearm_ok g.rearm).2,
    Ledger.owing_congr hrounds, Ledger.tokens, hpurse.balance]
  exact hcover

theorem custody_resolution (h : l.Custody) (g : Operation.Resolution slot accounts l m) :
    m.Custody := by
  obtain ⟨hid, hstanding⟩ := h.standing _ _ g.round_load
  obtain ⟨hid', hstands, hliability⟩ := hstanding.resolve g.resolve
  obtain ⟨mid, hmid, hother, -, hnext_absent, hrounds⟩ := g.exists_between
  obtain ⟨hmid_stand, hmid_owing⟩ := h.store hmid g.round_load (hid'.trans hid) hstands
  have htickets : ∀ k, m.tickets k = mid.tickets k := by
    intro k
    refine Ledger.tickets_congr fun p => ?_
    rw [hother .ticket _ (by simp)]
    exact g.records .ticket _ (by simp) (by simp) (by simp) (by simp) (by simp)
  obtain ⟨hp, hbal⟩ := g.purse h.purse
  refine ⟨hmid_stand.write hrounds (fun k _ => htickets k) g.next_after rfl ?_, hp, ?_⟩
  · rw [htickets, hmid_stand.unsold _ hnext_absent]
    exact .start _ _ _ _ _
  · have hcover := h.cover
    have hemptied : g.advanced.emptied.carryover = 0 := rfl
    rw [Ledger.waiting_of_load g.board_load] at hcover
    rw [Ledger.waiting_of_load g.board_after, hemptied,
      Ledger.owing_insert hrounds hnext_absent g.next_after, Round.liability_start]
    unfold Ledger.tokens at hcover ⊢
    omega

theorem custody_claim (hauth : Access.Authentic accounts) (h : l.Custody)
    (g : Operation.Claim slot accounts l m) : m.Custody := by
  obtain ⟨hid, hstanding⟩ := h.standing _ _ g.round_load
  have hrounds : ∀ k, k ≠ g.ticket.round → m.load .round (.round k) = l.load .round (.round k) := by
    intro k hk
    exact g.records .round _ (by simpa using hk) (by simp) (by simp)
  have htickets : ∀ k, k ≠ g.ticket.round → m.tickets k = l.tickets k := by
    intro k hk
    exact Ledger.tickets_congr fun p => g.records .ticket _ (by simp) (by simp [hk]) (by simp)
  -- the ticket is gone, and with it what the round owed it
  have hkept : l.tickets g.ticket.round = g.ticket ::ₘ m.tickets g.ticket.round :=
    Ledger.kept_erase (Address.isTicketOf_ticket _ _) (Ledger.isTicketOf_frame fun p hp =>
      g.records .ticket _ (by simp) (by simpa using hp) (by simp)) g.ticket_load g.ticket_after
  rw [hkept] at hstanding
  obtain ⟨hid', hstands, hliability⟩ := hstanding.claim g.payout_eq g.total rfl
  have howing := Ledger.owing_replace hrounds g.round_load g.round_after
  have hne : g.signer.address ≠ .treasury :=
    hauth.ne_of_seeds g.listed g.signed (by simp [Address.seeds?])
  obtain ⟨hp, hbal⟩ := g.purse hne h.purse
  refine ⟨h.write hrounds htickets g.round_after (hid'.trans hid) hstands, hp, ?_⟩
  have hcover := h.cover
  rw [Ledger.waiting_congr (g.records .board _ (by simp) (by simp) (by simp))]
  unfold Ledger.tokens at hcover ⊢
  omega

/-- What another than the treasury signs for takes nothing out of its purse. -/
theorem tokens_of_deposit {target : Address} {signer : Access} (hlisted : signer ∈ accounts)
    (hsigned : signer.signed = true) (hauth : Access.Authentic accounts)
    (h : ∀ o k, signer.address ≠ o → l.Purse o k → m.Purse o k ∧ m.balance (.wallet o k)
      = l.balance (.wallet o k) + (if target = .wallet o k then amount else 0))
    (hp : l.Purse .treasury .rng) : m.Purse .treasury .rng ∧ l.tokens ≤ m.tokens := by
  obtain ⟨hp', hbal⟩ :=
    h .treasury .rng (hauth.ne_of_seeds hlisted hsigned (by simp [Address.seeds?])) hp
  refine ⟨hp', ?_⟩
  unfold Ledger.tokens
  omega

theorem tokens_of_agree (h : Ledger.Agree l m (.wallet .treasury .rng))
    (hp : l.Purse .treasury .rng) : m.Purse .treasury .rng ∧ l.tokens ≤ m.tokens :=
  ⟨hp.of_agree h, h.balance.ge⟩

theorem custody_granted (hauth : Access.Authentic accounts) (h : l.Custody)
    (hg : Granted accounts l m) : m.Custody := by
  cases hg with
  | opening g => exact custody_opening h g
  | configuration g =>
    exact custody_frame h ((g.rest _ (by simp)).load _) (fun k => (g.rest _ (by simp)).load _)
      (fun p k => (g.rest _ (by simp)).load _) (tokens_of_agree (g.rest _ (by simp)))
  | stake g => exact custody_stake hauth h g
  | rearming g => exact custody_rearming h g
  | resolution g => exact custody_resolution h g
  | claim g => exact custody_claim hauth h g
  | bet g =>
    exact custody_frame h (g.records _ _ (by simp) (by simp) (by simp))
      (fun k => g.records _ _ (by simp) (by simp) (by simp))
      (fun p k => g.records _ _ (by simp) (by simp) (by simp))
      (tokens_of_deposit g.listed g.signed hauth g.purses)
  | settlement g =>
    exact custody_frame h ((g.rest _ (by simp) (by simp)).load _)
      (fun k => (g.rest _ (by simp) (by simp)).load _)
      (fun p k => (g.rest _ (by simp) (by simp)).load _)
      (tokens_of_agree (g.rest _ (by simp) (by simp)))
  | advance g =>
    exact custody_frame h ((g.rest _ (by simp)).load _) (fun k => (g.rest _ (by simp)).load _)
      (fun p k => (g.rest _ (by simp)).load _) (tokens_of_agree (g.rest _ (by simp)))
  | collection g =>
    refine custody_frame h (g.records _ _ (by simp)) (fun k => g.records _ _ (by simp))
      (fun p k => g.records _ _ (by simp)) fun hp => ?_
    obtain ⟨hp', hbal⟩ := g.purses .treasury .rng (by simp) hp
    exact ⟨hp', (Nat.le_add_right _ _).trans_eq hbal.symm⟩
  | funding g =>
    exact custody_frame h (g.records _ _ (by simp) (by simp))
      (fun k => g.records _ _ (by simp) (by simp))
      (fun p k => g.records _ _ (by simp) (by simp))
      (tokens_of_deposit g.listed g.signed hauth g.purses)
  | forfeiture g =>
    exact custody_frame h ((g.rest _ (by simp) (by simp)).load _)
      (fun k => (g.rest _ (by simp) (by simp)).load _)
      (fun p k => (g.rest _ (by simp) (by simp)).load _)
      (tokens_of_agree (g.rest _ (by simp) (by simp)))

theorem custody_outside (h : l.Custody) (ho : l.Outside m) : m.Custody :=
  custody_frame h ((ho.own _ (by simp [Address.seeds?])).load _)
    (fun k => (ho.own _ (by simp [Address.seeds?])).load _)
    (fun p k => (ho.own _ (by simp [Address.seeds?])).load _)
    (ho.purses .treasury .rng (by simp [Address.seeds?]))

theorem Reachable.custody (h : Reachable Authentic Ledger.Outside l) : l.Custody :=
  h.induction custody_genesis
    (fun hauth hg hr => custody_granted (Access.Authentic.unify hauth) hr hg)
    (fun ho hr => custody_outside hr ho)

/-! ## What is owed is there -/

/-- What one round owes is part of what all do. -/
theorem liability_le_owing {r : Round Address} (hr : r ∈ l.rounds) : r.liability ≤ l.owing := by
  obtain ⟨rest, hrest⟩ := Multiset.exists_cons_of_mem hr
  unfold Ledger.owing
  rw [hrest, Multiset.map_cons, Multiset.sum_cons]
  exact Nat.le_add_right _ _

/-- The tokens cover what a ticket is owed. -/
theorem payout_le_tokens {owner : Address} {t : Ticket Address} {r : Round Address}
    {payout : Payout} (h : l.Custody) (ht : l.load .ticket (.ticket owner t.round) = .ok t)
    (hr : l.load .round (.round t.round) = .ok r) (hp : r.payout t = .ok payout)
    (htotal : payout.total = .ok amount) : amount ≤ l.tokens := by
  obtain ⟨-, hstanding⟩ := h.standing _ r hr
  obtain ⟨rest, hrest⟩ := Multiset.exists_cons_of_mem (Ledger.mem_tickets.mpr ⟨owner, ht⟩)
  rw [hrest] at hstanding
  -- a claim would take that much out of what the round owes
  obtain ⟨paid, hpaid⟩ : ∃ paid : Round Address,
      paid = { r with totalClaimed := r.totalClaimed + amount } := ⟨_, rfl⟩
  obtain ⟨-, -, hliability⟩ := hstanding.claim hp htotal hpaid
  have hround := liability_le_owing (Ledger.mem_rounds.mpr ⟨t.round, hr⟩)
  have hcover := h.cover
  omega

/-- Whatever instructions are given, by whomever and in whatever order: the tokens in the treasury's
purse cover the pool that waits and what all rounds owe, and no round has paid out more than its
pool. So what a ticket is owed is there, and no claim is refused for want of tokens. -/
theorem tokens_cover_rounds (h : Reachable Authentic Ledger.Outside l) :
    (∀ b, l.load .board .board = .ok b → b.carryover + (l.rounds.map Round.liability).sum
        ≤ l.balance (.wallet .treasury .rng)) ∧
      (∀ r ∈ l.rounds, r.totalClaimed + r.totalVaulted ≤ r.totalStaked + r.carryIn) ∧
      (∀ owner t r payout amount, l.load .ticket (.ticket owner t.round) = .ok t →
        l.load .round (.round t.round) = .ok r → r.payout t = .ok payout →
        payout.total = .ok amount → 0 < amount →
        ∃ w, l.wallet (.wallet .treasury .rng) = .ok w ∧ amount ≤ w.amount) ∧
      ∀ slot i, Request.decode i.data = some .claim →
        process slot i l ≠ .error .insufficient := by
  have hc := h.custody
  refine ⟨fun b hb => ?_, fun r hr => ?_, fun owner t r payout amount ht hr hp htotal hpos => ?_,
    fun slot i hdecode hrefused => ?_⟩
  · have hcover := hc.cover
    rw [Ledger.waiting_of_load hb] at hcover
    exact hcover
  · obtain ⟨n, hload⟩ := Ledger.mem_rounds.mp hr
    exact (hc.standing n r hload).2.claimed_le
  · have hle := payout_le_tokens hc ht hr hp htotal
    cases hw : l.wallet (.wallet .treasury .rng) with
    | ok w =>
      have hbal : l.tokens = w.amount := Ledger.balance_of_wallet hw
      exact ⟨w, rfl, by omega⟩
    | error refusal =>
      have hbal : l.tokens = 0 := by
        unfold Ledger.tokens Ledger.balance
        rw [hw]
      omega
  · obtain ⟨owner, t, r, payout, amount, ht, hr, hp, htotal, hshort⟩ :=
      Operation.claim_insufficient (serve_error (by simp) hdecode hrefused)
    have hle := payout_le_tokens hc ht hr hp htotal
    have hshort : l.tokens < amount := hshort
    omega

/-! ## A first draw -/

/-- The admin opens the house, is given tokens and stakes on two squares, and the slot history comes
to hold the hash that the round waits for. -/
def firstStakes : Ledger :=
  (run ((run (.genesis [.admin]) [(0, Client.openHouse .admin)]).withWallet .admin .rng 5000)
    [(1, Client.stake .admin 1 26 100 0), (2, Client.stake .admin 1 3 1000 0)]).withHistory
      [⟨149, Bytes.fill32 0⟩, ⟨150, Bytes.fill32 7⟩]

/-- Then the round is resolved, and square 26 wins it. -/
def firstDraw : Ledger :=
  run firstStakes ((Client.resolve .admin 1 .admin).toList.map fun i => (150, i))

theorem reachable_firstDraw : Reachable Authentic Ledger.Outside firstDraw := by
  have hstakes : Reachable Authentic Ledger.Outside firstStakes := by
    refine ((((Reachable.genesis [.admin]).run ?_).other
      (Ledger.outside_withWallet _ _ _ rfl)).run ?_).other
        (Ledger.outside_withHistory _ _)
    · simp only [List.forall_mem_singleton]
      exact .of_first rfl (by decide)
    · simp only [List.forall_mem_cons, List.not_mem_nil, false_implies, implies_true, and_true]
      exact ⟨.of_first rfl (by decide), .of_first rfl (by decide)⟩
  refine hstakes.run fun c hc => ?_
  obtain ⟨i, hi, rfl⟩ := List.mem_map.mp hc
  have hresolve : i ∈ Client.resolve .admin 1 .admin := Option.mem_toList.mp hi
  rw [Client.resolve, if_pos (by decide)] at hresolve
  cases hresolve
  exact .of_first rfl (by decide)

/-- The winner is owed the stakes of 1100 less the fee of 10, and nothing waits. -/
theorem firstDraw_owes : (firstDraw.rounds.map Round.liability).sum = 1090 ∧
    firstDraw.balance (.wallet .treasury .rng) = 1090 ∧
    (firstDraw.load .board .board).toOption.map Board.carryover = some 0 := by
  decide +kernel

theorem tokens_cover_rounds_firstDraw :
    Reachable Authentic Ledger.Outside firstDraw ∧
      (∃ b, firstDraw.load .board .board = .ok b ∧ b.carryover + 1090 ≤ 1090) ∧
      (∀ r ∈ firstDraw.rounds, r.totalClaimed + r.totalVaulted ≤ r.totalStaked + r.carryIn) ∧
      process 160 (Client.claim .admin 1) firstDraw ≠ .error .insufficient := by
  obtain ⟨hcover, hclaimed, -, hclaim⟩ := tokens_cover_rounds reachable_firstDraw
  obtain ⟨howing, hbalance, hwaiting⟩ := firstDraw_owes
  refine ⟨reachable_firstDraw, ?_, hclaimed, hclaim 160 _ (Request.decode_encode trivial)⟩
  cases hb : firstDraw.load .board .board with
  | error r =>
    rw [hb] at hwaiting
    cases hwaiting
  | ok b =>
    have hle := hcover b hb
    rw [howing, hbalance] at hle
    exact ⟨b, rfl, hle⟩

end House

end DiceHouse
