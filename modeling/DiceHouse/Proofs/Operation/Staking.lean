import DiceHouse.Operation.Staking
import DiceHouse.Proofs.Ledger.Spares

/-!
# What the staking rounds change

What a granted stake, resolution or claim found and left behind. A resolution either only replaces
the seed slot, `Rearming`, or resolves the round and opens the next, `Resolution`.
-/

namespace DiceHouse

namespace Board

variable {b b' : Board} {slot : Nat}

theorem advance_ok {duration : Nat} (h : b.advance slot duration = .ok b') :
    b'.round = b.round + 1 ∧ b'.carryover = b.carryover := by
  unfold advance at h
  simp only [bind_eq_ok_iff, Amount.add_eq_ok_iff, pure_eq_ok_iff] at h
  obtain ⟨-, ⟨-, rfl⟩, -, -, -, -, rfl⟩ := h
  exact ⟨rfl, rfl⟩

theorem rearm_ok (h : b.rearm slot = .ok b') :
    b'.round = b.round ∧ b'.carryover = b.carryover := by
  unfold rearm at h
  simp only [bind_eq_ok_iff, pure_eq_ok_iff] at h
  obtain ⟨-, -, rfl⟩ := h
  exact ⟨rfl, rfl⟩

/-- The next window opens after the intermission, and its end seeds the roll. -/
theorem advance_window {duration : Nat} (h : b.advance slot duration = .ok b') :
    b'.start = slot + intermission ∧ b'.finish = b'.start + duration ∧ b'.seedSlot = b'.finish := by
  unfold advance at h
  simp only [bind_eq_ok_iff, Amount.add_eq_ok_iff, pure_eq_ok_iff] at h
  obtain ⟨-, -, -, ⟨-, rfl⟩, -, ⟨-, rfl⟩, rfl⟩ := h
  exact ⟨rfl, rfl, rfl⟩

/-- A new seed slot lies ahead, and the window stays. -/
theorem rearm_window (h : b.rearm slot = .ok b') :
    b'.start = b.start ∧ b'.finish = b.finish ∧ b'.seedSlot = slot + seedDelay := by
  unfold rearm at h
  simp only [bind_eq_ok_iff, Amount.add_eq_ok_iff, pure_eq_ok_iff] at h
  obtain ⟨-, ⟨-, rfl⟩, rfl⟩ := h
  exact ⟨rfl, rfl, rfl⟩

end Board

namespace Operation

/-! ## Staking -/

/-- The ticket to which a player's stake is added: the one that is kept, or a new one. -/
inductive Opened (l : Ledger) (signer : Address) (round : Nat) : Ticket Address → Prop where
  | fresh (h : ∀ ticket, l.load .ticket (.ticket signer round) ≠ .ok ticket) :
    Opened l signer round { Ticket.blank signer with round }
  | kept {ticket : Ticket Address} (h : l.load .ticket (.ticket signer round) = .ok ticket)
    (howner : ticket.owner = signer) : Opened l signer round ticket

theorem openTicket_ok {s : Session} {signer : Address} {round : Nat}
    {opened : Session × Ticket Address}
    (h : openTicket s signer (.ticket signer round) round = .ok opened) :
    Opened s.ledger signer round opened.2 ∧
      (opened.1.ledger (.ticket signer round)).owner = .program ∧
      (∀ b, b ≠ .ticket signer round → Ledger.Agree s.ledger opened.1.ledger b) ∧
      ∀ v, s.ledger.Spares opened.1.ledger v := by
  unfold openTicket at h
  split at h
  · next hempty =>
    simp only [bind_eq_ok_iff, pure_eq_ok_iff] at h
    obtain ⟨s', hc, rfl⟩ := h
    obtain ⟨-, -, howner, hrest⟩ := Session.create_ok hc
    exact ⟨.fresh fun ticket => Ledger.load_of_isEmpty hempty, howner, hrest,
      Session.create_spares hc fun w => Ledger.wallet_of_isEmpty hempty⟩
  · simp only [bind_eq_ok_iff, demand_eq_ok_iff, exists_const, pure_eq_ok_iff] at h
    obtain ⟨ticket, hl, howner, rfl⟩ := h
    exact ⟨.kept hl howner, Ledger.owner_of_load hl, fun b _ => .refl _ b, fun v => .refl _ v⟩

/-- A granted stake. -/
structure Stake (slot amount square prediction : Nat) (accounts : List Access)
    (l m : Ledger) where
  signer : Access
  listed : signer ∈ accounts
  signed : signer.signed = true
  board : Board
  board_load : l.load .board .board = .ok board
  isOpen : board.isOpen slot = true
  round : Round Address
  round_listed : accounts[2]?.map Access.address = some (.round board.round)
  round_load : l.load .round (.round board.round) = .ok round
  ticket : Ticket Address
  opened : Opened l signer.address round.id ticket
  staked : Round Address × Ticket Address
  stake : round.stake ticket square amount prediction = .ok staked
  round_after : m.load .round (.round board.round) = .ok staked.1
  ticket_after : m.load .ticket (.ticket signer.address round.id) = .ok staked.2
  records : ∀ kind b, b ≠ .round board.round → b ≠ .ticket signer.address round.id →
    b ≠ .wallet .treasury .rng → m.load kind b = l.load kind b
  purses : ∀ o k, signer.address ≠ o → l.Purse o k → m.Purse o k ∧
    m.balance (.wallet o k) = l.balance (.wallet o k)
      + (if Address.wallet .treasury .rng = .wallet o k then amount else 0)
  spares : ∀ v, signer.address ≠ v → .treasury ≠ v → l.Purse .treasury .rng → l.Spares m v

theorem stake_ok {slot amount square prediction : Nat} {accounts : List Access} {l : Ledger}
    {s : Session} (h : stake slot amount square prediction accounts l = .ok s) :
    Nonempty (Stake slot amount square prediction accounts l s.ledger) := by
  unfold stake at h
  split at h
  · next signer board round ticket treasury source vault mint system tokenProgram walletProgram =>
    simp only [bind_eq_ok_iff, Access.requireSigned_eq_ok_iff, Access.requireDerived_eq_ok_iff,
      Access.requireOwn_eq_ok_iff, Access.requireWritable_eq_ok_iff,
      Access.requireNamed_eq_ok_iff, Access.requireProgram_eq_ok_iff, liftM_eq_ok_iff,
      Board.requireOpen, require_eq_ok_iff, exists_const, pure_eq_ok_iff] at h
    obtain ⟨hsigned, hboard, b, hb, hopen, ⟨-, hround⟩, r, hr, ⟨-, hticket⟩, htreasury, -, -, -, -,
      -, -, opened, hopened, staked, hstake, s₁, hensure, s₂, hpay, rfl⟩ := h
    rw [hboard] at hb
    rw [hround] at hr hensure
    rw [hticket] at hopened hensure
    rw [htreasury] at hensure
    obtain ⟨htook, howner, hag, hopen_spares⟩ := openTicket_ok hopened
    obtain ⟨hvault, hfilled, hpaid, hpurse⟩ := Session.deposit_ok (fun _ => False) hensure
      (fun b _ => .refl _ b) (fun _ hc => hc.elim) hpay
    have hround_owner : (opened.1.ledger (.round b.round)).owner = .program := by
      rw [(hag (.round b.round) (by simp)).owner]
      exact Ledger.owner_of_load hr
    rw [hvault] at hfilled hpurse
    obtain ⟨mid, hmid⟩ : ∃ mid, (opened.1.ledger.store .round (.round b.round) staked.1).store
        .ticket (.ticket signer.address r.id) staked.2 = mid := ⟨_, rfl⟩
    obtain ⟨hround_mid, hticket_mid, hwritten, hspared⟩ :=
      Ledger.store_both hround_owner howner (by simp) hmid
    rw [Session.ledger_store, Session.ledger_store, hmid] at hfilled hpurse
    have hload : ∀ kind a, a ≠ .wallet .treasury .rng →
        s₂.ledger.load kind a = mid.load kind a := by
      intro kind a ha
      exact (hpaid kind a).trans ((hfilled a ha).load kind)
    have hstored : ∀ a, a ≠ .round b.round → a ≠ .ticket signer.address r.id →
        Ledger.Agree l mid a := by
      intro a har hat
      exact (hag a hat).trans (hwritten a har hat)
    refine ⟨{
      signer, listed := List.mem_cons_self, signed := hsigned
      board := b, board_load := hb, isOpen := hopen
      round := r, round_listed := congrArg some hround, round_load := hr
      ticket := opened.2, opened := htook, staked, stake := hstake
      round_after := ?_, ticket_after := ?_, records := ?_, purses := ?_, spares := ?_ }⟩
    · rw [Session.ledger_note, hload .round _ (by simp), hround_mid]
    · rw [Session.ledger_note, hload .ticket _ (by simp), hticket_mid]
    · intro kind a har hat hav
      rw [Session.ledger_note, hload kind a hav]
      exact (hstored a har hat).load kind
    · intro o k hne hp
      have hw := hstored (.wallet o k) (by simp) (by simp)
      obtain ⟨hp', hbal⟩ := hpurse o k hne not_false (hp.of_agree hw)
      rw [hw.balance] at hbal
      exact ⟨hp', hbal⟩
    · intro v hsigner htreasury_ne hp
      rw [Session.ledger_note]
      have hpurse_mid : mid.Purse .treasury .rng := hp.of_agree (hstored _ (by simp) (by simp))
      rw [← hmid] at hpurse_mid hspared
      exact (((hopen_spares v).trans (hspared v)).trans
        (Session.ensureWallet_spares hensure hpurse_mid htreasury_ne)).trans
        (Session.transfer_spares hpay hsigner)
  · cases h

/-! ## Resolving -/

/-- The burn, if there is anything to burn. -/
theorem burn_ok {s s' : Session} {vault : Access} {burned : Nat}
    (h : (if 0 < burned then do
        vault.requireWallet s.ledger .treasury .rng
        s.move (.burn vault.address (.mint .rng) .treasury burned [.treasury])
      else pure s) = .ok s') :
    s' = s ∧ burned = 0 ∨
      s.ledger.burn (.wallet .treasury .rng) (.mint .rng) burned = .ok s'.ledger := by
  split at h
  · simp only [bind_eq_ok_iff, Access.requireWallet_eq_ok_iff, exists_const] at h
    obtain ⟨⟨-, hvault, -⟩, hmove⟩ := h
    rw [hvault] at hmove
    exact .inr (Session.move_ok hmove)
  · next hzero =>
    rw [pure_eq_ok_iff] at h
    exact .inl ⟨h.symm, by omega⟩

/-- The fee is paid first, if there is one, and then the burn is made. -/
theorem disburse_steps {s s' : Session} {split : Split} {treasury vault collector mint : Access}
    {feeCollector : Address} (htreasury : treasury.address = .treasury)
    (hmint : mint.address = .mint .rng)
    (h : disburse s split treasury vault collector mint feeCollector = .ok s') :
    ∃ s₁ : Session,
      s.ledger.PaidOut s₁.ledger .treasury .rng (.wallet feeCollector .rng) split.fee ∧
      (s' = s₁ ∧ split.burned = 0 ∨
        s₁.ledger.burn (.wallet .treasury .rng) (.mint .rng) split.burned = .ok s'.ledger) := by
  unfold disburse at h
  dsimp only at h
  rw [htreasury, hmint] at h
  split at h
  · simp only [bind_eq_ok_iff, Access.requireWallet_eq_ok_iff, exists_const] at h
    obtain ⟨⟨-, hvault, -⟩, ⟨-, hcollector, -⟩, s₁, hpay, hburn⟩ := h
    rw [hvault, hcollector] at hpay
    exact ⟨s₁, .inr (Session.move_ok hpay), burn_ok hburn⟩
  · next hzero =>
    simp only [bind_eq_ok_iff, pure_eq_ok_iff, exists_eq_left'] at h
    exact ⟨s, .inl ⟨rfl, by omega⟩, burn_ok h⟩

/-- A split was paid out: the fee was sent to its collector, and what was to be burned is gone. -/
structure Disbursed (split : Split) (feeCollector : Address) (l m : Ledger) : Prop where
  load : ∀ kind a, a ≠ .mint .rng → m.load kind a = l.load kind a
  rounds : ∀ n, Ledger.Agree l m (.round n)
  /-- Nothing else left the purse of the treasury, -/
  purse : l.Purse .treasury .rng → m.Purse .treasury .rng ∧
    l.balance (.wallet .treasury .rng)
      ≤ m.balance (.wallet .treasury .rng) + split.fee + split.burned
  /-- and the collector's was the only other that it reached. -/
  purses : ∀ o k, .treasury ≠ o → l.Purse o k → m.Purse o k ∧
    m.balance (.wallet o k) = l.balance (.wallet o k)
      + (if Address.wallet feeCollector .rng = .wallet o k then split.fee else 0)
  spares : ∀ v, .treasury ≠ v → l.Purse .treasury .rng → l.Spares m v

theorem disburse_ok {s s' : Session} {split : Split} {treasury vault collector mint : Access}
    {feeCollector : Address} (htreasury : treasury.address = .treasury)
    (hmint : mint.address = .mint .rng)
    (h : disburse s split treasury vault collector mint feeCollector = .ok s') :
    Disbursed split feeCollector s.ledger s'.ledger := by
  obtain ⟨s₁, hfee, hburn⟩ := disburse_steps htreasury hmint h
  constructor
  case load =>
    intro kind a ha
    rcases hburn with ⟨rfl, -⟩ | hbn
    · exact hfee.load kind a
    · exact (Ledger.load_burn hbn kind ha).trans (hfee.load kind a)
  case rounds =>
    intro n
    have hpaid := hfee.agree (a := .round n) (by simp) (by simp)
    rcases hburn with ⟨rfl, -⟩ | hbn
    · exact hpaid
    · exact hpaid.trans (Ledger.agree_burn hbn (by simp) (by simp))
  case purse =>
    intro hp
    obtain ⟨hp₁, hbal₁⟩ := hfee.purse hp
    rcases hburn with ⟨rfl, -⟩ | hbn
    · exact ⟨hp₁, by omega⟩
    · obtain ⟨hp₂, hbal₂⟩ := Ledger.purse_burn hp₁ (by simp) hbn
      exact ⟨hp₂, by omega⟩
  case purses =>
    intro o k hne hp
    obtain ⟨hp₁, hbal₁⟩ := hfee.other hne hp
    rcases hburn with ⟨rfl, -⟩ | hbn
    · exact ⟨hp₁, hbal₁⟩
    · have hag : Ledger.Agree s₁.ledger s'.ledger (.wallet o k) :=
        Ledger.agree_burn hbn (by simpa using fun hc : o = .treasury => absurd hc.symm hne)
          (by simp)
      rw [hag.balance]
      exact ⟨hp₁.of_agree hag, hbal₁⟩
  case spares =>
    intro v hne hp
    rcases hburn with ⟨rfl, -⟩ | hbn
    · exact hfee.spares hne
    · exact (hfee.spares hne).trans (Ledger.spares_burn hbn (hfee.purse hp).1 hne)

section Between

variable {n : Nat} {split : Split} {feeCollector : Address} {l l₁ l₂ m : Ledger}

/-- First the round and the totals are written, then the split is paid out, and then the next round
is opened and the board points at it. So tokens leave the treasury by the split alone. -/
theorem Disbursed.purse_between (hpaid : Disbursed split feeCollector l₁ l₂)
    (hwritten : ∀ a, a ≠ .round n → a ≠ .treasury → Ledger.Agree l l₁ a)
    (hopened : ∀ a, a ≠ .board → a ≠ .round (n + 1) → Ledger.Agree l₂ m a)
    (hp : l.Purse .treasury .rng) :
    m.Purse .treasury .rng ∧ l.balance (.wallet .treasury .rng)
      ≤ m.balance (.wallet .treasury .rng) + split.fee + split.burned :=
  hp.between (R := fun now before => before ≤ now + split.fee + split.burned)
    (hwritten _ (by simp) (by simp)) (hopened _ (by simp) (by simp)) hpaid.purse

theorem Disbursed.purses_between (hpaid : Disbursed split feeCollector l₁ l₂)
    (hwritten : ∀ a, a ≠ .round n → a ≠ .treasury → Ledger.Agree l l₁ a)
    (hopened : ∀ a, a ≠ .board → a ≠ .round (n + 1) → Ledger.Agree l₂ m a) (o : Address) (k : Token)
    (hne : .treasury ≠ o) (hp : l.Purse o k) :
    m.Purse o k ∧ m.balance (.wallet o k) = l.balance (.wallet o k)
      + (if Address.wallet feeCollector .rng = .wallet o k then split.fee else 0) :=
  hp.between (R := fun now before => now = before + _) (hwritten _ (by simp) (by simp))
    (hopened _ (by simp) (by simp)) (hpaid.purses o k hne)

/-- No record is read differently that was not written in between. -/
theorem Disbursed.records_between (hpaid : Disbursed split feeCollector l₁ l₂)
    (hwritten : ∀ a, a ≠ .round n → a ≠ .treasury → Ledger.Agree l l₁ a)
    (hopened : ∀ a, a ≠ .board → a ≠ .round (n + 1) → Ledger.Agree l₂ m a) (kind : Record.Kind)
    (a : Address) (hboard : a ≠ .board) (hround : a ≠ .round n) (hnext : a ≠ .round (n + 1))
    (htreasury : a ≠ .treasury) (hmint : a ≠ .mint .rng) : m.load kind a = l.load kind a := by
  rw [(hopened a hboard hnext).load, hpaid.load kind a hmint]
  exact (hwritten a hround htreasury).load kind

end Between

/-- A granted resolution that only replaced the seed slot. -/
structure Rearming (slot : Nat) (accounts : List Access) (l m : Ledger) where
  board : Board
  board_load : l.load .board .board = .ok board
  isClosed : board.finish ≤ slot
  lapsed : SlotHistory.lookup (l .slotHashes).contents.toBytes board.seedSlot = .ok .expired
  rearmed : Board
  rearm : board.rearm slot = .ok rearmed
  board_after : m.load .board .board = .ok rearmed
  rest : ∀ b, b ≠ .board → Ledger.Agree l m b

/-- A granted resolution that resolved the round and opened the next. -/
structure Resolution (slot : Nat) (accounts : List Access) (l m : Ledger) where
  board : Board
  board_load : l.load .board .board = .ok board
  isClosed : board.finish ≤ slot
  settings : Settings Address
  settings_load : l.load .settings .settings = .ok settings
  round : Round Address
  round_load : l.load .round (.round board.round) = .ok round
  numbered : round.id = board.round
  treasury : Treasury
  treasury_load : l.load .treasury .treasury = .ok treasury
  next_absent : ∀ body, l.load .round (.round (board.round + 1)) ≠ .ok body
  seed : Bytes32
  found : SlotHistory.lookup (l .slotHashes).contents.toBytes board.seedSlot = .ok (.found seed)
  resolved : Round Address × Split
  resolve : round.resolve seed settings = .ok resolved
  recorded : Treasury
  record : treasury.record resolved.2 = .ok recorded
  advanced : Board
  advance : ({ board with carryover := board.carryover + resolved.2.carried } : Board).advance slot
    settings.roundDuration = .ok advanced
  expiresAt : Nat
  expiry : Amount.add advanced.finish Board.claimPeriod = .ok expiresAt
  payer : Address
  board_after : m.load .board .board = .ok advanced.emptied
  treasury_after : m.load .treasury .treasury = .ok recorded
  round_after : m.load .round (.round board.round) = .ok resolved.1
  next_after : m.load .round (.round (board.round + 1))
    = .ok (Round.start .system (board.round + 1) (board.carryover + resolved.2.carried)
      expiresAt payer)
  records : ∀ kind b, b ≠ .board → b ≠ .round board.round → b ≠ .round (board.round + 1) →
    b ≠ .treasury → b ≠ .mint .rng → m.load kind b = l.load kind b
  purse : l.Purse .treasury .rng → m.Purse .treasury .rng ∧
    l.balance (.wallet .treasury .rng)
      ≤ m.balance (.wallet .treasury .rng) + resolved.2.fee + resolved.2.burned
  purses : ∀ o k, .treasury ≠ o → l.Purse o k → m.Purse o k ∧
    m.balance (.wallet o k) = l.balance (.wallet o k)
      + (if Address.wallet settings.feeCollector .rng = .wallet o k then resolved.2.fee else 0)
  spares : ∀ v, .treasury ≠ v → l.Purse .treasury .rng → l.Spares m v

/-- The next round stands at its own number with the pool that waited, and the board waits for
stakes on it. -/
theorem startNext_ok {s s' : Session} {slot : Nat} {settings : Settings Address} {b : Board}
    {payer next : Address} (h : startNext s slot settings b payer next = .ok s')
    (howner : (s.ledger .board).owner = .program) :
    ∃ advanced expiresAt, b.advance slot settings.roundDuration = .ok advanced ∧
      Amount.add advanced.finish Board.claimPeriod = .ok expiresAt ∧
      next = .round (b.round + 1) ∧
      s'.ledger.load .board .board = .ok advanced.emptied ∧
      s'.ledger.load .round next
        = .ok (Round.start .system (b.round + 1) b.carryover expiresAt payer) ∧
      ∀ a, a ≠ .board → a ≠ next → Ledger.Agree s.ledger s'.ledger a := by
  unfold startNext at h
  simp only [bind_eq_ok_iff, liftM_eq_ok_iff, pure_eq_ok_iff] at h
  obtain ⟨advanced, hadvance, s₁, hc, expiresAt, hexpiry, rfl⟩ := h
  obtain ⟨hround, hcarry⟩ := Board.advance_ok hadvance
  rw [hround] at hc
  obtain ⟨hnext, -, ho, hrest⟩ := Session.create_ok hc
  have hboard : (s₁.ledger .board).owner = .program := by
    rw [(hrest .board (by simp [hnext])).owner, howner]
  refine ⟨advanced, expiresAt, hadvance, hexpiry, hnext, ?_, ?_, fun a hab han => ?_⟩
  · rw [Session.ledger_store, Ledger.load_store_of_ne _ _ (by simp [hnext])]
    exact Ledger.load_store _ .board _ _ hboard
  · rw [← hround, ← hcarry]
    refine Ledger.load_store _ .round _ _ ?_
    rw [Session.ledger_store, Ledger.owner_store]
    exact ho
  · exact ((hrest a han).trans (Ledger.agree_store _ _ _ hab)).trans
      (Ledger.agree_store _ _ _ han)

/-- The next round is opened where nothing was, and the board is the house's own. -/
theorem startNext_spares {s s' : Session} {slot : Nat} {settings : Settings Address} {b : Board}
    {payer next : Address} (h : startNext s slot settings b payer next = .ok s')
    (howner : (s.ledger .board).owner = .program) (hnone : ∀ w, s.ledger.wallet next ≠ .ok w)
    (v : Address) : s.ledger.Spares s'.ledger v := by
  obtain ⟨-, -, -, -, -, -, -, hrest⟩ := startNext_ok h howner
  refine .of_agree fun a => ?_
  by_cases hboard : a = .board
  · subst hboard
    exact .inl fun w hw => absurd hw (Ledger.wallet_of_owner howner w)
  · by_cases hnext : a = next
    · subst hnext
      exact .inl fun w hw => absurd hw (hnone w)
    · exact .inr (hrest a hboard hnext)

/-- A seed slot was replaced on the board alone. -/
theorem nonempty_rearming {slot : Nat} {accounts : List Access} {l : Ledger} {b rearmed : Board}
    (hb : l.load .board .board = .ok b) (hclosed : b.finish ≤ slot)
    (hlapsed : SlotHistory.lookup (l .slotHashes).contents.toBytes b.seedSlot = .ok .expired)
    (hrearm : b.rearm slot = .ok rearmed) :
    Nonempty (Rearming slot accounts l (l.store .board .board rearmed)) :=
  ⟨{
    board := b, board_load := hb, isClosed := hclosed, lapsed := hlapsed
    rearmed, rearm := hrearm
    board_after := Ledger.load_store l .board _ rearmed (Ledger.owner_of_load hb)
    rest := fun _ ha => Ledger.agree_store _ _ _ ha }⟩

/-- A round was resolved and recorded, the split was paid out, and the next round was opened. -/
theorem nonempty_resolution {slot : Nat} {accounts : List Access} {l : Ledger} {b : Board}
    {config : Settings Address} {r : Round Address} {t recorded : Treasury} {seed : Bytes32}
    {resolved : Round Address × Split} {s₁ s : Session} {line : String} {payer next : Address}
    (hb : l.load .board .board = .ok b) (hclosed : b.finish ≤ slot)
    (hconfig : l.load .settings .settings = .ok config)
    (hr : l.load .round (.round b.round) = .ok r) (ht : l.load .treasury .treasury = .ok t)
    (hnext : next = .round (r.id + 1))
    (hempty : (l (.round (r.id + 1))).contents.isEmpty = true)
    (hfound : SlotHistory.lookup (l .slotHashes).contents.toBytes b.seedSlot = .ok (.found seed))
    (hresolve : r.resolve seed config = .ok resolved)
    (hrecord : t.record resolved.2 = .ok recorded)
    (hpaid : Disbursed resolved.2 config.feeCollector
      ((l.store .round (.round b.round) resolved.1).store .treasury .treasury recorded) s₁.ledger)
    (hstart : startNext (s₁.note line) slot config
      { b with carryover := b.carryover + resolved.2.carried } payer next = .ok s) :
    Nonempty (Resolution slot accounts l s.ledger) := by
  obtain ⟨mid, hmid⟩ : ∃ mid, (l.store .round (.round b.round) resolved.1).store .treasury
      .treasury recorded = mid := ⟨_, rfl⟩
  obtain ⟨hround_mid, htreasury_mid, hwritten, hspared⟩ :=
    Ledger.store_both (Ledger.owner_of_load hr) (Ledger.owner_of_load ht) (by simp) hmid
  rw [hmid] at hpaid
  have hboard₁ : s₁.ledger.load .board .board = .ok b := by
    rw [hpaid.load .board _ (by simp), (hwritten .board (by simp) (by simp)).load, hb]
  obtain ⟨advanced, expiresAt, hadvance, hexpiry, hnext', hboard_after, hnext_after, hopened⟩ :=
    startNext_ok hstart (Ledger.owner_of_load hboard₁)
  have hspares := startNext_spares hstart (Ledger.owner_of_load hboard₁)
  have hid : r.id = b.round := by simpa using hnext.symm.trans hnext'
  rw [hnext'] at hnext_after hopened hspares
  rw [hid] at hempty
  have hnone : ∀ w, s₁.ledger.wallet (.round (b.round + 1)) ≠ .ok w := by
    intro w
    rw [((hwritten _ (by simp) (by simp)).trans (hpaid.rounds (b.round + 1))).wallet]
    exact Ledger.wallet_of_isEmpty hempty
  refine ⟨{
    board := b, board_load := hb, isClosed := hclosed
    settings := config, settings_load := hconfig, round := r, round_load := hr, numbered := hid
    treasury := t, treasury_load := ht
    next_absent := fun body => Ledger.load_of_isEmpty hempty
    seed, found := hfound, resolved, resolve := hresolve, recorded, record := hrecord
    advanced, advance := hadvance, expiresAt, expiry := hexpiry, payer
    board_after := hboard_after, treasury_after := ?_, round_after := ?_
    next_after := hnext_after
    records := hpaid.records_between hwritten hopened
    purse := hpaid.purse_between hwritten hopened
    purses := hpaid.purses_between hwritten hopened
    spares := ?_ }⟩
  · rw [(hopened _ (by simp) (by simp)).load, Session.ledger_note,
      hpaid.load .treasury _ (by simp), htreasury_mid]
  · rw [(hopened _ (by simp) (by simp)).load, Session.ledger_note,
      hpaid.load .round _ (by simp), hround_mid]
  · intro v hne hp
    have hpurse_mid : mid.Purse .treasury .rng := hp.of_agree (hwritten _ (by simp) (by simp))
    exact ((hspared v).trans (hpaid.spares v hne hpurse_mid)).trans (hspares hnone v)

theorem resolve_ok {slot : Nat} {accounts : List Access} {l : Ledger} {s : Session}
    (h : resolve slot accounts l = .ok s) :
    Nonempty (Rearming slot accounts l s.ledger) ∨
      Nonempty (Resolution slot accounts l s.ledger) := by
  unfold resolve at h
  split at h
  · next signer board settings round next treasury vault collector mint slotHashes system
      tokenProgram =>
    simp only [bind_eq_ok_iff, Access.requireSigned_eq_ok_iff, Access.requireDerived_eq_ok_iff,
      Access.requireOwn_eq_ok_iff, Access.requireWritable_eq_ok_iff,
      Access.requireNamed_eq_ok_iff, Access.requireProgram_eq_ok_iff,
      Access.requireFresh_eq_ok_iff, liftM_eq_ok_iff, Board.requireClosed,
      Amount.add_eq_ok_iff, require_eq_ok_iff, exists_const] at h
    obtain ⟨-, ⟨-, hboard⟩, b, hb, hclosed, hsettings, config, hconfig, ⟨-, hround⟩, r, hr, nextId,
      ⟨-, rfl⟩, ⟨hempty, -, hnext⟩, -, htreasury, t, ht, -, hmint, hslots, -, -, found, hfound,
      h⟩ := h
    rw [hboard] at hb
    rw [hsettings] at hconfig
    rw [hround] at hr
    rw [htreasury] at ht
    rw [hnext] at hempty
    rw [hslots] at hfound
    cases found with
    | pending => cases h
    | expired =>
      simp only [bind_eq_ok_iff, liftM_eq_ok_iff, pure_eq_ok_iff] at h
      obtain ⟨rearmed, hrearm, rfl⟩ := h
      left
      rw [Session.ledger_note, Session.ledger_store, hboard]
      exact nonempty_rearming hb hclosed hfound hrearm
    | found seed =>
      simp only [bind_eq_ok_iff, liftM_eq_ok_iff, Amount.add_eq_ok_iff] at h
      obtain ⟨resolved, hresolve, recorded, hrecord, s₁, hdisburse, -, ⟨-, rfl⟩, hstart⟩ := h
      right
      rw [hround, htreasury] at hdisburse
      have hpaid := disburse_ok htreasury hmint hdisburse
      exact nonempty_resolution hb hclosed hconfig hr ht hnext hempty hfound hresolve hrecord hpaid
        hstart
  · cases h

/-- A resolution is as if the round was resolved first, and the next was opened after that. -/
theorem Resolution.exists_between {slot : Nat} {accounts : List Access} {l m : Ledger}
    (g : Resolution slot accounts l m) :
    ∃ mid, mid = l.store .round (.round g.board.round) g.resolved.1 ∧
      (∀ kind a, a ≠ .round g.board.round → mid.load kind a = l.load kind a) ∧
      mid.load .round (.round g.board.round) = .ok g.resolved.1 ∧
      (∀ r, mid.load .round (.round (g.board.round + 1)) ≠ .ok r) ∧
      ∀ k, k ≠ g.board.round + 1 →
        m.load .round (.round k) = mid.load .round (.round k) := by
  have hother : ∀ kind a, a ≠ .round g.board.round →
      (l.store .round (.round g.board.round) g.resolved.1).load kind a = l.load kind a :=
    fun kind a ha => Ledger.load_store_of_ne _ _ ha
  have hround := Ledger.load_store l .round _ g.resolved.1 (Ledger.owner_of_load g.round_load)
  refine ⟨_, rfl, hother, hround, ?_, fun k hk => ?_⟩
  · rw [hother .round _ (by simp)]
    exact g.next_absent
  · by_cases hround_k : k = g.board.round
    · rw [hround_k, g.round_after, hround]
    · have hne : Address.round k ≠ .round g.board.round := by simpa using hround_k
      rw [hother .round _ hne]
      exact g.records .round _ (by simp) hne (by simpa using hk) (by simp) (by simp)

/-! ## Cashing in -/

/-- A granted claim. -/
structure Claim (slot : Nat) (accounts : List Access) (l m : Ledger) where
  signer : Access
  listed : signer ∈ accounts
  signer_listed : accounts[0]?.map Access.address = some signer.address
  signed : signer.signed = true
  ticket : Ticket Address
  ticket_load : l.load .ticket (.ticket signer.address ticket.round) = .ok ticket
  owner : ticket.owner = signer.address
  round : Round Address
  round_listed : accounts[1]?.map Access.address = some (.round ticket.round)
  round_load : l.load .round (.round ticket.round) = .ok round
  inTime : slot ≤ round.expiresAt
  payout : Payout
  payout_eq : round.payout ticket = .ok payout
  amount : Nat
  total : payout.total = .ok amount
  jackpotWinner : Address
  treasury : Treasury
  treasury_load : l.load .treasury .treasury = .ok treasury
  claimed : Treasury
  record : treasury.claim amount = .ok claimed
  treasury_after : m.load .treasury .treasury = .ok claimed
  /-- The ticket is gone afterwards. -/
  ticket_after : ∀ body, m.load .ticket (.ticket signer.address ticket.round) ≠ .ok body
  round_after : m.load .round (.round ticket.round)
    = .ok { round with jackpotWinner, totalClaimed := round.totalClaimed + amount }
  records : ∀ kind b, b ≠ .round ticket.round → b ≠ .ticket signer.address ticket.round →
    b ≠ .treasury → m.load kind b = l.load kind b
  purse : signer.address ≠ .treasury → l.Purse .treasury .rng → m.Purse .treasury .rng ∧
    m.balance (.wallet .treasury .rng) + amount = l.balance (.wallet .treasury .rng)
  purses : ∀ o k, .treasury ≠ o → l.Purse o k → m.Purse o k ∧
    m.balance (.wallet o k) = l.balance (.wallet o k)
      + (if Address.wallet signer.address .rng = .wallet o k then amount else 0)
  spares : ∀ v, .treasury ≠ v → l.Spares m v

/-- What is owed is paid out of the treasury's purse, if it is anything. -/
theorem payTicket_ok {s s' : Session} {treasury vault target : Access} {owner : Address}
    {amount : Nat} {rest : Session → Except Refusal Session}
    (htreasury : treasury.address = .treasury)
    (h : (if 0 < amount then do
        vault.requireWallet s.ledger .treasury .rng
        target.requireWallet s.ledger owner .rng
        let s ← s.payOut vault.address target.address treasury.address amount
        rest s
      else do
        let s ← pure s
        rest s) = .ok s') :
    ∃ s₁ : Session, s.ledger.PaidOut s₁.ledger .treasury .rng (.wallet owner .rng) amount ∧
      s₁.paid (.wallet .treasury .rng) (.wallet owner .rng)
        = s.paid (.wallet .treasury .rng) (.wallet owner .rng) + amount ∧
      rest s₁ = .ok s' := by
  rw [htreasury] at h
  split at h
  · simp only [bind_eq_ok_iff, Access.requireWallet_eq_ok_iff, exists_const] at h
    obtain ⟨⟨-, hvault, -⟩, ⟨-, htarget, -⟩, s₁, hpay, hrest⟩ := h
    rw [hvault, htarget] at hpay
    exact ⟨s₁, .inr (Session.move_ok hpay), Session.paid_payOut hpay, hrest⟩
  · next hzero =>
    obtain rfl : amount = 0 := by omega
    simp only [bind_eq_ok_iff, pure_eq_ok_iff, exists_eq_left'] at h
    exact ⟨s, .inl ⟨rfl, rfl⟩, rfl, h⟩

/-- A granted claim pays the owner what it grants. -/
theorem claim_ok {slot : Nat} {accounts : List Access} {l : Ledger} {s : Session}
    (h : claim slot accounts l = .ok s) :
    ∃ g : Claim slot accounts l s.ledger,
      s.paid (.wallet .treasury .rng) (.wallet g.signer.address .rng) = g.amount := by
  unfold claim at h
  split at h
  · next signer round ticket treasury vault target tokenProgram =>
    dsimp only at h
    simp only [bind_eq_ok_iff, Access.requireSigned_eq_ok_iff, Access.requireDerived_eq_ok_iff,
      Access.requireOwn_eq_ok_iff, Access.requireWritable_eq_ok_iff,
      Access.requireNamed_eq_ok_iff, Access.requireProgram_eq_ok_iff, demand_eq_ok_iff,
      liftM_eq_ok_iff, Amount.add_eq_ok_iff, require_eq_ok_iff, exists_const] at h
    obtain ⟨hsigned, -, own, hown, howner, hticket, ⟨-, hround⟩, r, hr, -, htreasury, t, ht, -,
      hslot, payout, hpayout, amount, htotal, totalClaimed, ⟨-, rfl⟩, claimed, hclaimed, h⟩ := h
    obtain ⟨s₁, hpaid, hsum, h⟩ := payTicket_ok htreasury h
    simp only [bind_eq_ok_iff, pure_eq_ok_iff] at h
    obtain ⟨closed, hclose, rfl⟩ := h
    rw [Session.paid_store, Session.paid_store, Session.paid_start, Nat.zero_add] at hsum
    rw [hticket] at hown hclose
    rw [hround] at hr
    rw [htreasury] at ht
    simp only [Session.ledger_store, Session.ledger_note, hround, htreasury] at hpaid hclose
    clear h
    -- the round as it is written, under a name of its own
    obtain ⟨paid, hround_paid⟩ : ∃ paid : Round Address, paid = { r with
        jackpotWinner := if payout.wonJackpot then signer.address else r.jackpotWinner
        totalClaimed := r.totalClaimed + amount } := ⟨_, rfl⟩
    rw [← hround_paid] at hpaid
    obtain ⟨mid, hmid⟩ : ∃ mid, (l.store .round (.round own.round) paid).store .treasury .treasury
        claimed = mid := ⟨_, rfl⟩
    obtain ⟨hround_mid, htreasury_mid, hstored, hspared⟩ :=
      Ledger.store_both (Ledger.owner_of_load hr) (Ledger.owner_of_load ht) (by simp) hmid
    rw [hmid] at hpaid
    have hrest : ∀ a, a ≠ .ticket signer.address own.round → Ledger.Agree s₁.ledger closed a := by
      intro a ha
      exact Ledger.agree_close hclose ha
    refine ⟨{
      signer, listed := List.mem_cons_self, signer_listed := rfl, signed := hsigned
      ticket := own, ticket_load := hown, owner := howner
      round := r, round_listed := congrArg some hround, round_load := hr
      inTime := hslot, payout, payout_eq := hpayout, amount, total := htotal
      jackpotWinner := if payout.wonJackpot then signer.address else r.jackpotWinner
      treasury := t, treasury_load := ht, claimed, record := hclaimed, treasury_after := ?_
      ticket_after := ?_, round_after := ?_, records := ?_, purse := ?_, purses := ?_
      spares := ?_ }, hsum⟩
    · rw [(hrest _ (by simp)).load, hpaid.load, htreasury_mid]
    · intro body hc
      rw [Ledger.load_close hclose] at hc
      cases hc
    · rw [(hrest _ (by simp)).load, hpaid.load, hround_mid, hround_paid]
    · intro kind a har hat hatr
      rw [(hrest a hat).load, hpaid.load]
      exact (hstored a har hatr).load kind
    · intro hne hp
      -- the winner is not the treasury, so nothing comes back at once
      refine hp.between (R := fun now before => now + amount = before)
        (hstored _ (by simp) (by simp)) (hrest _ (by simp)) fun hp₁ => ?_
      have hbal := hpaid.purse hp₁
      rw [if_neg (by simpa using hne), Nat.add_zero] at hbal
      exact hbal
    · intro o k hne hp
      exact hp.between (R := fun now before => now = before + _)
        (hstored _ (by simp) (by simp)) (hrest _ (by simp)) (hpaid.other hne)
    · intro v hne
      have hticket_load : s₁.ledger.load .ticket (.ticket signer.address own.round) = .ok own := by
        rw [hpaid.load, (hstored _ (by simp) (by simp)).load, hown]
      exact ((hspared v).trans (hpaid.spares hne)).trans
        (Ledger.spares_close hclose (Ledger.owner_of_load hticket_load) v)
  · cases h

theorem close_ne_insufficient {l : Ledger} {a payee : Address} :
    close l a payee ≠ .error .insufficient := by
  intro h
  unfold close at h
  simp only [bind_eq_error_iff, demand_eq_error_iff, pure_ne_error, reduceCtorEq, and_false,
    or_false, exists_false] at h

/-- A claim is refused for want of tokens only if the treasury's purse does not cover what the
ticket is owed. -/
theorem claim_insufficient {slot : Nat} {accounts : List Access} {l : Ledger}
    (h : claim slot accounts l = .error .insufficient) :
    ∃ signer ticket round payout amount, l.load .ticket (.ticket signer ticket.round) = .ok ticket ∧
      l.load .round (.round ticket.round) = .ok round ∧ round.payout ticket = .ok payout ∧
      payout.total = .ok amount ∧ l.balance (.wallet .treasury .rng) < amount := by
  unfold claim at h
  split at h
  · next signer round ticket treasury vault target tokenProgram =>
    dsimp only at h
    simp only [bind_eq_error_iff, Access.requireSigned, Access.requireOwn, Access.requireWritable,
      Access.requireDerived, Access.requireNamed, Access.requireProgram, demand_eq_error_iff,
      demand_eq_ok_iff, liftM_eq_error_iff, liftM_eq_ok_iff, require_eq_ok_iff, reduceCtorEq,
      and_false, or_false, false_or, exists_false, exists_const] at h
    obtain ⟨-, -, h⟩ := h
    rcases h with hl | ⟨own, hown, -, hticket, u, hu, h⟩
    · exact absurd hl Ledger.load_ne_insufficient
    rcases h with hl | ⟨r, hr, -, htreasury, h⟩
    · exact absurd hl Ledger.load_ne_insufficient
    rcases h with hl |
      ⟨t, ht, -, -, -, payout, hpayout, amount, htotal, totalClaimed, -, claimed, -, h⟩
    · exact absurd hl Ledger.load_ne_insufficient
    have hround : round.address = .round own.round := (Access.requireOwn_eq_ok_iff.mp hu).2
    rw [hticket] at hown
    rw [hround] at hr
    refine ⟨signer.address, own, r, payout, amount, hown, hr, hpayout, htotal, ?_⟩
    split at h
    · simp only [bind_eq_error_iff, Access.requireWallet, Access.requireWritable,
        demand_eq_error_iff, demand_eq_ok_iff, Ledger.requireWallet_ne_insufficient,
        close_ne_insufficient, pure_ne_error, reduceCtorEq, and_false, or_false, false_or,
        exists_false] at h
      obtain ⟨v, hv, -, -, h⟩ := h
      have hvault : vault.address = .wallet .treasury .rng :=
        (Access.requireWallet_eq_ok_iff.mp hv).2.1
      have hlt := Ledger.balance_lt_of_transfer (Session.move_error h)
      -- neither the round nor the totals are kept in the purse
      rw [hvault, hround, htreasury, Session.ledger_store, Session.ledger_store,
        ((Ledger.agree_store l .round _ (by simp)).trans
          (Ledger.agree_store _ .treasury _ (by simp))).balance] at hlt
      exact hlt
    · simp only [bind_eq_error_iff, close_ne_insufficient, pure_ne_error, and_false, or_false,
        exists_false] at h
  · cases h

end Operation

end DiceHouse
