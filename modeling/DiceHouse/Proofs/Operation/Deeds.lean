import DiceHouse.Client
import DiceHouse.Proofs.Ledger.Opened
import DiceHouse.Proofs.Ledger.Session
import DiceHouse.Operation.Administration
import DiceHouse.Operation.Cage
import DiceHouse.Operation.Play

/-!
# What operations do

An operation is told its accounts, checks them one by one, and keeps a log. The deed of an operation
is what it does to the ledger if the accounts are the right ones: it names the addresses itself and
checks no account. Each operation does its deed on every list of accounts that the client's
instruction lists, with any further rights, as long as the records and wallets that it is about are
there; so none of its checks of accounts stands in the way.
-/

namespace DiceHouse

variable {α : Type}

/-! ## Deeds -/

namespace Ledger

/-- A new account with its first record. -/
def enter (l : Ledger) (kind : Record.Kind) (payer a : Address) (body : kind.Body Address) :
    Except Refusal Ledger := do
  let l ← l.createAccount payer a .program kind.length
  return l.store kind a body

/-- A wallet for an owner, unless something is there already. -/
def furnish (l : Ledger) (payer owner : Address) (token : Token) : Except Refusal Ledger :=
  if (l (.wallet owner token)).contents.isEmpty then
    l.openWallet payer (.wallet owner token) owner token
  else return l

end Ledger

namespace Deed

def openHouse (slot : Nat) (signer : Address) (l : Ledger) : Except Refusal Ledger := do
  let l ← l.enter .board signer .board Board.blank
  let first ← Operation.firstBoard slot
  let l := l.store .board .board first
  let l ← l.enter .settings signer .settings (Settings.initial signer)
  let l ← l.enter .treasury signer .treasury Treasury.blank
  let l ← l.enter .round signer (.round 1) (Round.blank .system)
  let expiresAt ← Amount.add first.finish Board.claimPeriod
  let l := l.store .round (.round 1) (Round.start .system 1 0 expiresAt signer)
  l.enter .table signer .table (Table.blank.setPhase .comeOut)

def configure (signer : Address) (new : Settings Address) (l : Ledger) :
    Except Refusal Ledger := do
  let current : Settings Address ← l.load .settings .settings
  require (current.admin = signer) .invalidAuthority
  let valid ← new.validate
  return l.store .settings .settings valid

/-- A player's ticket for a round, a fresh one if there is none. -/
def takeTicket (l : Ledger) (owner : Address) (n : Nat) :
    Except Refusal (Ledger × Ticket Address) := do
  if (l (.ticket owner n)).contents.isEmpty then
    let fresh : Ticket Address := { Ticket.blank owner with round := n }
    let l ← l.enter .ticket owner (.ticket owner n) fresh
    return (l, fresh)
  else
    let t : Ticket Address ← l.load .ticket (.ticket owner n)
    return (l, t)

def stake (slot : Nat) (signer : Address) (n square amount prediction : Nat) (l : Ledger) :
    Except Refusal Ledger := do
  let b : Board ← l.load .board .board
  b.requireOpen slot
  let r : Round Address ← l.load .round (.round n)
  let (l, t) ← takeTicket l signer n
  let staked ← r.stake t square amount prediction
  let l := l.store .round (.round n) staked.1
  let l := l.store .ticket (.ticket signer n) staked.2
  let l ← l.furnish signer .treasury .rng
  l.transfer (.wallet signer .rng) (.wallet .treasury .rng) signer amount

def disburse (split : Split) (feeCollector : Address) (l : Ledger) : Except Refusal Ledger := do
  let l ←
    if 0 < split.fee then
      l.transfer (.wallet .treasury .rng) (.wallet feeCollector .rng) .treasury split.fee
    else pure l
  if 0 < split.burned then l.burn (.wallet .treasury .rng) (.mint .rng) split.burned
  else return l

def startNext (slot : Nat) (settings : Settings Address) (b : Board) (payer : Address)
    (l : Ledger) : Except Refusal Ledger := do
  let advanced ← b.advance slot settings.roundDuration
  let l ← l.enter .round payer (.round advanced.round) (Round.blank .system)
  let expiresAt ← Amount.add advanced.finish Board.claimPeriod
  let started := Round.start .system advanced.round advanced.carryover expiresAt payer
  return (l.store .board .board advanced.emptied).store .round (.round advanced.round) started

def resolve (slot : Nat) (signer : Address) (n : Nat) (feeCollector : Address) (l : Ledger) :
    Except Refusal Ledger := do
  let b : Board ← l.load .board .board
  b.requireClosed slot
  let config : Settings Address ← l.load .settings .settings
  let r : Round Address ← l.load .round (.round n)
  let t : Treasury ← l.load .treasury .treasury
  match ← SlotHistory.lookup (l .slotHashes).contents.toBytes b.seedSlot with
  | .pending => .error (.fault .seedUnavailable)
  | .expired =>
    let rearmed ← b.rearm slot
    return l.store .board .board rearmed
  | .found seed =>
    let resolved ← r.resolve seed config
    let recorded ← t.record resolved.2
    let l := l.store .round (.round n) resolved.1
    let l := l.store .treasury .treasury recorded
    let l ← disburse resolved.2 feeCollector l
    let carryover ← Amount.add b.carryover resolved.2.carried
    startNext slot config { b with carryover } signer l

def claim (slot : Nat) (signer : Address) (n : Nat) (l : Ledger) : Except Refusal Ledger := do
  let own : Ticket Address ← l.load .ticket (.ticket signer n)
  let r : Round Address ← l.load .round (.round n)
  let t : Treasury ← l.load .treasury .treasury
  require (slot ≤ r.expiresAt) .roundExpired
  let payout ← r.payout own
  let amount ← payout.total
  let jackpotWinner := if payout.wonJackpot then signer else r.jackpotWinner
  let totalClaimed ← Amount.add r.totalClaimed amount
  let claimed ← t.claim amount
  let l := l.store .round (.round n) { r with jackpotWinner, totalClaimed }
  let l := l.store .treasury .treasury claimed
  let l ←
    if 0 < amount then
      l.transfer (.wallet .treasury .rng) (.wallet signer .rng) .treasury amount
    else pure l
  Operation.close l (.ticket signer n) signer

/-- A player's seat at a table that has seen the rolls up to `epoch`, a fresh one if there is
none. -/
def takeSeat (l : Ledger) (owner : Address) (epoch : Nat) :
    Except Refusal (Ledger × Seat Address) := do
  if (l (.seat owner)).contents.isEmpty then
    let fresh : Seat Address := { Seat.blank owner with epoch }
    let l ← l.enter .seat owner (.seat owner) fresh
    return (l, fresh)
  else
    let taken : Seat Address ← l.load .seat (.seat owner)
    require (taken.epoch = epoch ∨ ¬taken.hasRiding) .staleEpoch
    return (l, { taken with epoch })

def bet (slot : Nat) (signer : Address) (spot : Spot) (amount : Nat) (l : Ledger) :
    Except Refusal Ledger := do
  let b : Board ← l.load .board .board
  b.requireOpen slot
  let t : Table ← l.load .table .table
  require (1 ≤ b.round ∧ t.epoch = b.round - 1) .staleEpoch
  let (l, taken) ← takeSeat l signer t.epoch
  let phase ← t.phase
  let placed ← taken.place spot amount phase
  let reserved ← t.reserve amount placed.2
  let l := l.store .seat (.seat signer) placed.1
  let l := l.store .table .table reserved
  let l ← l.furnish signer .vault .crap
  l.transfer (.wallet signer .crap) (.wallet .vault .crap) signer amount

def settle (owner : Address) (n : Nat) (l : Ledger) : Except Refusal Ledger := do
  let config : Settings Address ← l.load .settings .settings
  let t : Table ← l.load .table .table
  let taken : Seat Address ← l.load .seat (.seat owner)
  let r : Round Address ← l.load .round (.round n)
  let roll ← r.roll
  let rolled ← t.catchUp n roll
  let turn ← Operation.playTurn rolled.1 taken n roll config.fieldTriple
  return (l.store .table .table turn.1).store .seat (.seat owner) turn.2.1

def advance (n : Nat) (l : Ledger) : Except Refusal Ledger := do
  let t : Table ← l.load .table .table
  let r : Round Address ← l.load .round (.round n)
  let roll ← r.roll
  let rolled ← t.catchUp n roll
  match rolled.2 with
  | none => return l
  | some _ => return l.store .table .table rolled.1

def collect (signer : Address) (l : Ledger) : Except Refusal Ledger := do
  let taken : Seat Address ← l.load .seat (.seat signer)
  require (taken.pending ≠ 0) .nothingToClaim
  let l := l.store .seat (.seat signer) { taken with pending := 0 }
  l.transfer (.wallet .vault .crap) (.wallet signer .crap) .vault taken.pending

def fund (signer : Address) (amount : Nat) (l : Ledger) : Except Refusal Ledger := do
  let t : Table ← l.load .table .table
  require (amount ≠ 0) .invalidAmount
  let l ← l.furnish signer .vault .crap
  let funded ← t.fund amount
  let l := l.store .table .table funded
  l.transfer (.wallet signer .crap) (.wallet .vault .crap) signer amount

def forfeit (owner : Address) (l : Ledger) : Except Refusal Ledger := do
  let t : Table ← l.load .table .table
  let taken : Seat Address ← l.load .seat (.seat owner)
  require (taken.hasRiding ∧ t.isBeyondLog taken.epoch) .stillSettleable
  let cleared ← taken.forfeit
  let booked ← t.book 0 cleared.2.lost cleared.2.released
  let l := l.store .table .table booked
  return l.store .seat (.seat owner) { cleared.1 with epoch := booked.epoch }

end Deed

/-! ## Doing a deed -/

/-- What becomes of the ledger in a session. -/
def Does (x : Except Refusal Session) (y : Except Refusal Ledger) : Prop :=
  Session.ledger <$> x = y

/-- What becomes of it while something is found out. -/
def DoesWith (x : Except Refusal (Session × α)) (y : Except Refusal (Ledger × α)) : Prop :=
  (fun p => (p.1.ledger, p.2)) <$> x = y

namespace Does

theorem pure (s : Session) : Does (pure s) (pure s.ledger) := rfl

theorem error (e : Refusal) : Does (.error e) (.error e) := rfl

/-- What is computed on the way is the same. -/
theorem value {x : Except Refusal α} {k : α → Except Refusal Session}
    {k' : α → Except Refusal Ledger} (h : ∀ a, x = .ok a → Does (k a) (k' a)) :
    Does (x >>= k) (x >>= k') := by
  cases x with
  | error e => rfl
  | ok a => exact h a rfl

theorem bind {x : Except Refusal Session} {y : Except Refusal Ledger}
    {k : Session → Except Refusal Session} {k' : Ledger → Except Refusal Ledger} (h : Does x y)
    (hk : ∀ s, x = .ok s → Does (k s) (k' s.ledger)) : Does (x >>= k) (y >>= k') := by
  cases x with
  | error e =>
    cases h
    rfl
  | ok s =>
    cases h
    exact hk s rfl

/-- What a session ends with may be written down besides. -/
theorem last {x : Except Refusal Session} {y : Except Refusal Ledger} {k : Session → Session}
    (h : Does x y) (hk : ∀ s, (k s).ledger = s.ledger) :
    Does (x >>= fun s => Pure.pure (k s)) y := by
  cases x with
  | error e => exact h
  | ok s =>
    cases h
    exact congrArg Except.ok (hk s)

theorem bind_with {x : Except Refusal (Session × α)} {y : Except Refusal (Ledger × α)}
    {k : Session × α → Except Refusal Session} {k' : Ledger × α → Except Refusal Ledger}
    (h : DoesWith x y) (hk : ∀ s a, x = .ok (s, a) → Does (k (s, a)) (k' (s.ledger, a))) :
    Does (x >>= k) (y >>= k') := by
  cases x with
  | error e =>
    cases h
    rfl
  | ok p =>
    cases h
    exact hk p.1 p.2 rfl

/-- What a deed is refused for, its operation is. -/
theorem error_iff {x : Except Refusal Session} {y : Except Refusal Ledger} {e : Refusal}
    (h : Does x y) : x = .error e ↔ y = .error e := by
  cases h
  cases x with
  | error e' =>
    exact ⟨fun hx => congrArg _ (Except.error.inj hx), fun hy => congrArg _ (Except.error.inj hy)⟩
  | ok s => exact ⟨fun hx => (nomatch hx), fun hy => (nomatch hy)⟩

end Does

/-- What is found out may depend on what becomes of the ledger. -/
theorem Does.with {x : Except Refusal Session} {y : Except Refusal Ledger} (h : Does x y) (a : α) :
    DoesWith (x >>= fun s => Pure.pure (s, a)) (y >>= fun l => Pure.pure (l, a)) := by
  cases x with
  | error e =>
    cases h
    rfl
  | ok s =>
    cases h
    rfl

variable {s : Session}

theorem does_move (s : Session) (m : Movement) : Does (s.move m) (m.apply s.ledger) := by
  unfold Session.move
  cases h : m.apply s.ledger with
  | error e => rfl
  | ok l => rfl

theorem does_create (s : Session) (kind : Record.Kind) (payer a : Address)
    (body : kind.Body Address) :
    Does (s.create kind payer a a body) (s.ledger.enter kind payer a body) := by
  unfold Session.create
  rw [demand_of_true rfl, ok_bind]
  exact (does_move s _).bind fun s' _ => .pure _

theorem does_ensureWallet (s : Session) (payer : Address) {owner : Address} {token : Token}
    (h : (s.ledger (.wallet owner token)).contents.isEmpty = true
      ∨ s.ledger.Opened owner token) :
    Does (s.ensureWallet payer (.wallet owner token) owner token)
      (s.ledger.furnish payer owner token) := by
  unfold Session.ensureWallet Ledger.furnish
  by_cases hempty : (s.ledger (.wallet owner token)).contents.isEmpty = true
  · rw [if_pos hempty, if_pos hempty]
    exact does_move s _
  · rw [if_neg hempty, if_neg hempty, (h.resolve_left hempty).require, ok_bind]
    exact .pure s

theorem does_openTicket {owner : Address} {n : Nat}
    (h : (s.ledger (.ticket owner n)).contents.isEmpty = true
      ∨ ∃ t, s.ledger.load .ticket (.ticket owner n) = .ok t ∧ t.owner = owner) :
    DoesWith (Operation.openTicket s owner (.ticket owner n) n)
      (Deed.takeTicket s.ledger owner n) := by
  unfold Operation.openTicket Deed.takeTicket
  by_cases hempty : (s.ledger (.ticket owner n)).contents.isEmpty = true
  · rw [if_pos hempty, if_pos hempty]
    exact (does_create s _ _ _ _).with _
  · obtain ⟨t, ht, howner⟩ := h.resolve_left hempty
    rw [if_neg hempty, if_neg hempty, ht, ok_bind, ok_bind, demand_of_true howner, ok_bind]
    rfl

theorem does_takeSeat {owner : Address} {epoch : Nat} (h : (s.ledger (.seat owner)).contents.isEmpty
      = true ∨ ∃ taken, s.ledger.load .seat (.seat owner) = .ok taken ∧ taken.owner = owner) :
    DoesWith (Operation.takeSeat s owner (.seat owner) epoch)
      (Deed.takeSeat s.ledger owner epoch) := by
  unfold Operation.takeSeat Deed.takeSeat
  by_cases hempty : (s.ledger (.seat owner)).contents.isEmpty = true
  · rw [if_pos hempty, if_pos hempty]
    exact (does_create s _ _ _ _).with _
  · obtain ⟨taken, ht, howner⟩ := h.resolve_left hempty
    rw [if_neg hempty, if_neg hempty, ht, ok_bind, ok_bind, require_of_true howner, liftM_ok,
      ok_bind]
    by_cases hepoch : taken.epoch = epoch ∨ ¬taken.hasRiding
    · rw [require_of_true hepoch]
      rfl
    · unfold require
      rw [if_neg hepoch]
      rfl

theorem requireWallet_of_opened {l : Ledger} {a : Access} {owner : Address} {token : Token}
    (hopened : l.Opened owner token) (haddress : a.address = .wallet owner token)
    (hwritable : a.writable = true) : a.requireWallet l owner token = .ok () := by
  have hcheck : a.requireWritable = .ok () := Access.requireWritable_eq_ok_iff.mpr hwritable
  rw [Access.requireWallet, hcheck, ok_bind, haddress, hopened.require]

theorem does_disburse {split : Split} {feeCollector : Address}
    {treasury vault collector mint : Access} (htreasury : treasury.address = .treasury)
    (hvault : vault.address = .wallet .treasury .rng) (hvault' : vault.writable = true)
    (hcollector : collector.address = .wallet feeCollector .rng)
    (hcollector' : collector.writable = true) (hmint : mint.address = .mint .rng)
    (hopened : s.ledger.Opened .treasury .rng) (hfee : s.ledger.Opened feeCollector .rng) :
    Does (Operation.disburse s split treasury vault collector mint feeCollector)
      (Deed.disburse split feeCollector s.ledger) := by
  have burns (s' : Session) (hstill : s'.ledger.Opened .treasury .rng) :
      Does
        (if 0 < split.burned then do
          vault.requireWallet s'.ledger .treasury .rng
          s'.move (.burn vault.address mint.address treasury.address split.burned
            [treasury.address])
        else pure s')
        (if 0 < split.burned then
          s'.ledger.burn (.wallet .treasury .rng) (.mint .rng) split.burned
        else pure s'.ledger) := by
    by_cases hpos : 0 < split.burned
    · rw [if_pos hpos, if_pos hpos, requireWallet_of_opened hstill hvault hvault', ok_bind, hvault,
        hmint]
      exact does_move s' _
    · rw [if_neg hpos, if_neg hpos]
      exact .pure s'
  unfold Operation.disburse Deed.disburse
  by_cases hpos : 0 < split.fee
  · simp only [if_pos hpos, requireWallet_of_opened hopened hvault hvault',
      requireWallet_of_opened hfee hcollector hcollector', hvault, hcollector, htreasury, ok_bind]
      at burns ⊢
    -- paying the fee leaves the house's wallet opened
    exact (does_move s _).bind fun s' hpaid => burns s' (hopened.transfer (Session.move_ok hpaid))
  · simp only [if_neg hpos, pure_bind]
    exact burns s hopened

theorem does_startNext {slot : Nat} {settings : Settings Address} {b : Board} {payer next : Address}
    (hnext : next = .round (b.round + 1)) :
    Does (Operation.startNext s slot settings b payer next)
      (Deed.startNext slot settings b payer s.ledger) := by
  unfold Operation.startNext Deed.startNext
  refine .value fun advanced hadvanced => ?_
  have hround : next = .round advanced.round := by
    rw [liftM_eq_ok_iff] at hadvanced
    simp only [Board.advance, bind_eq_ok_iff, Amount.add_eq_ok_iff, pure_eq_ok_iff] at hadvanced
    obtain ⟨_, ⟨-, rfl⟩, _, -, _, -, rfl⟩ := hadvanced
    exact hnext
  rw [hround]
  exact (does_create s _ _ _ _).bind fun s' _ => .value fun expiresAt _ => .pure _

/-- Closing an account is the last that becomes of the ledger. -/
theorem Does.close {a payee : Address} :
    Does
      (do
        let closed ← Operation.close s.ledger a payee
        return { s with ledger := closed })
      (Operation.close s.ledger a payee) := by
  cases h : Operation.close s.ledger a payee with
  | error e => rfl
  | ok l => rfl

/-! ## Refusals of deeds -/

section Refusals

open Refusal (Material Short)
open Ledger

variable {l m : Ledger} {payer a owner house : Address} {token : Token}

theorem short_enter (kind : Record.Kind) (body : kind.Body Address) :
    RefusedOnly Short (l.enter kind payer a body) := by
  unfold enter
  exact short_createAccount.bind fun _ => refusedOnly_pure _

theorem agree_enter {kind : Record.Kind} {body : kind.Body Address} {b : Address}
    (h : l.enter kind payer a body = .ok m) (hb : b ≠ a) : Agree l m b := by
  unfold enter at h
  simp only [bind_eq_ok_iff, pure_eq_ok_iff] at h
  obtain ⟨l', hl', rfl⟩ := h
  exact (agree_createAccount hl' hb).trans (agree_store l' kind body hb)

theorem short_furnish : RefusedOnly Short (l.furnish payer owner token) := by
  unfold furnish
  split
  · exact short_openWallet
  · exact refusedOnly_pure l

theorem opened_furnish (h : (l (.wallet owner token)).contents.isEmpty = true
      ∨ l.Opened owner token) (hm : l.furnish payer owner token = .ok m) :
    m.Opened owner token := by
  unfold furnish at hm
  split at hm
  · exact opened_openWallet hm
  · next hempty =>
    cases hm
    exact h.resolve_left hempty

theorem Ledger.Opened.furnish {token' : Token} (h : l.Opened house token')
    (hm : l.furnish payer owner token = .ok m) : m.Opened house token' := by
  unfold Ledger.furnish at hm
  split at hm
  · exact h.openWallet hm
  · cases hm
    exact h

/-- A payment into a wallet of the house lacks nothing but tokens. -/
theorem short_deposit {amount : Nat} (hs : l.Opened owner token)
    (h : (l (.wallet house token)).contents.isEmpty = true ∨ l.Opened house token) :
    RefusedOnly Short
      (do
        let l ← l.furnish owner house token
        l.transfer (.wallet owner token) (.wallet house token) owner amount) :=
  short_furnish.bind_of_ok fun _ hm => short_transfer (hs.furnish hm) (opened_furnish h hm)

theorem short_takeTicket {n : Nat} (h : (l (.ticket owner n)).contents.isEmpty = true
      ∨ ∃ t, l.load .ticket (.ticket owner n) = .ok t ∧ t.owner = owner) :
    RefusedOnly Short (Deed.takeTicket l owner n) := by
  unfold Deed.takeTicket
  split
  · exact (short_enter _ _).bind fun _ => refusedOnly_pure _
  · next hempty =>
    obtain ⟨t, ht, -⟩ := h.resolve_left hempty
    rw [ht]
    exact refusedOnly_pure _

theorem agree_takeTicket {n : Nat} {p : Ledger × Ticket Address} {b : Address}
    (h : Deed.takeTicket l owner n = .ok p) (hb : b ≠ .ticket owner n) : Agree l p.1 b := by
  unfold Deed.takeTicket at h
  split at h
  · simp only [bind_eq_ok_iff, pure_eq_ok_iff] at h
    obtain ⟨l', hl', rfl⟩ := h
    exact agree_enter hl' hb
  · simp only [bind_eq_ok_iff, pure_eq_ok_iff] at h
    obtain ⟨t, -, rfl⟩ := h
    exact .refl l b

theorem material_takeSeat {epoch : Nat} (h : (l (.seat owner)).contents.isEmpty = true
      ∨ ∃ s, l.load .seat (.seat owner) = .ok s ∧ s.owner = owner) :
    RefusedOnly Material (Deed.takeSeat l owner epoch) := by
  unfold Deed.takeSeat
  split
  · exact (short_enter _ _).material.bind fun _ => refusedOnly_pure _
  · next hempty =>
    obtain ⟨s, hs, -⟩ := h.resolve_left hempty
    rw [hs]
    exact (material_liftM _).bind fun _ => refusedOnly_pure _

theorem agree_takeSeat {epoch : Nat} {p : Ledger × Seat Address} {b : Address}
    (h : Deed.takeSeat l owner epoch = .ok p) (hb : b ≠ .seat owner) : Agree l p.1 b := by
  unfold Deed.takeSeat at h
  split at h
  · simp only [bind_eq_ok_iff, pure_eq_ok_iff] at h
    obtain ⟨l', hl', rfl⟩ := h
    exact agree_enter hl' hb
  · simp only [bind_eq_ok_iff, pure_eq_ok_iff] at h
    obtain ⟨taken, -, -, -, rfl⟩ := h
    exact .refl l b

theorem short_disburse {split : Split} {feeCollector : Address} {supply : Nat}
    (hvault : l.Opened .treasury .rng) (hfee : l.Opened feeCollector .rng)
    (hmint : l.supply (.mint .rng) = .ok supply) :
    RefusedOnly Short (Deed.disburse split feeCollector l) := by
  have burns (m : Ledger) (hvault : m.Opened .treasury .rng)
      (hmint : m.supply (.mint .rng) = .ok supply) :
      RefusedOnly Short
        (if 0 < split.burned then m.burn (.wallet .treasury .rng) (.mint .rng) split.burned
        else pure m) := by
    split
    · exact short_burn hvault hmint
    · exact refusedOnly_pure m
  unfold Deed.disburse
  by_cases hpos : 0 < split.fee
  · simp only [if_pos hpos]
    refine (short_transfer hvault hfee).bind_of_ok fun m hm => burns m (hvault.transfer hm) ?_
    -- a transfer between wallets leaves the mint as it was
    have hag : Agree l m (.mint .rng) := agree_transfer hm (by simp) (by simp)
    unfold Ledger.supply at hmint ⊢
    rwa [hag.contents]
  · simp only [if_neg hpos, pure_bind]
    exact burns l hvault hmint

/-- With room for its numbers, the next round lacks nothing but lamports. -/
theorem short_startNext {slot : Nat} {settings : Settings Address} {b : Board}
    (hround : b.round + 1 < Amount.limit)
    (hclock : slot + Board.intermission + settings.roundDuration + Board.claimPeriod
      < Amount.limit) :
    RefusedOnly Short (Deed.startNext slot settings b payer l) := by
  have hadvance : b.advance slot settings.roundDuration = .ok
      { b with
        round := b.round + 1
        start := slot + Board.intermission
        finish := slot + Board.intermission + settings.roundDuration
        seedSlot := slot + Board.intermission + settings.roundDuration } := by
    unfold Board.advance
    rw [Amount.add_of_lt hround, ok_bind, Amount.add_of_lt (by omega), ok_bind,
      Amount.add_of_lt (by omega), ok_bind]
    rfl
  unfold Deed.startNext
  rw [hadvance, liftM_ok, ok_bind]
  refine (short_enter _ _).bind fun _ => ?_
  rw [Amount.add_of_lt hclock, liftM_ok, ok_bind]
  exact refusedOnly_pure _

theorem material_startNext {slot : Nat} {settings : Settings Address} {b : Board} :
    RefusedOnly Material (Deed.startNext slot settings b payer l) := by
  unfold Deed.startNext
  exact (material_liftM _).bind fun _ => (short_enter _ _).material.bind fun _ =>
    (material_liftM _).bind fun _ => refusedOnly_pure _

end Refusals

end DiceHouse
