import DiceHouse.Operation.Play
import DiceHouse.Proofs.Ledger.Spares
import DiceHouse.Proofs.Seat.Place
import DiceHouse.Proofs.Seat.Settle
import DiceHouse.Proofs.Table.Line

/-!
# What playing at the table changes

For every operation at the table there is a record of what a granted one found and what it left
behind: the records that it loaded, what was computed from them, and how each account is read
afterwards. The theorem beside it opens the operation once, so nothing else has to.
-/

namespace DiceHouse.Operation

/-! ## Betting -/

/-- The seat on which a player bets: the one that is kept for the player, or a new one. -/
inductive Taken (l : Ledger) (signer : Address) (epoch : Nat) : Seat Address → Prop where
  | fresh (h : ∀ seat, l.load .seat (.seat signer) ≠ .ok seat) :
    Taken l signer epoch { Seat.blank signer with epoch }
  | kept {seat : Seat Address} (h : l.load .seat (.seat signer) = .ok seat)
    (howner : seat.owner = signer) (hsettled : seat.epoch = epoch ∨ ¬seat.hasRiding) :
    Taken l signer epoch { seat with epoch }

/-- A seat that is taken is the player's, and level with the table. -/
theorem Taken.level {l : Ledger} {signer : Address} {epoch : Nat} {seat : Seat Address}
    (h : Taken l signer epoch seat) : seat.owner = signer ∧ seat.epoch = epoch := by
  cases h with
  | fresh _ => exact ⟨rfl, rfl⟩
  | kept _ howner _ => exact ⟨howner, rfl⟩

/-- What rides at a seat that is taken waits for the roll after the table's last. -/
theorem Taken.waits {l : Ledger} {signer : Address} {epoch : Nat} {seat before : Seat Address}
    (h : Taken l signer epoch seat) (hload : l.load .seat (.seat signer) = .ok before) :
    before.epoch = epoch ∨ before.hasRiding = false := by
  cases h with
  | fresh habsent => exact absurd hload (habsent before)
  | kept hkept _ hsettled =>
    cases hkept.symm.trans hload
    simpa using hsettled

theorem takeSeat_ok {s : Session} {signer : Address} {epoch : Nat} {taken : Session × Seat Address}
    (h : takeSeat s signer (.seat signer) epoch = .ok taken) :
    Taken s.ledger signer epoch taken.2 ∧
      (taken.1.ledger (.seat signer)).owner = .program ∧
      (∀ b, b ≠ .seat signer → Ledger.Agree s.ledger taken.1.ledger b) ∧
      ∀ v, s.ledger.Spares taken.1.ledger v := by
  unfold takeSeat at h
  split at h
  · next hempty =>
    simp only [bind_eq_ok_iff, pure_eq_ok_iff] at h
    obtain ⟨s', hc, rfl⟩ := h
    obtain ⟨-, -, howner, hrest⟩ := Session.create_ok hc
    exact ⟨.fresh fun seat => Ledger.load_of_isEmpty hempty, howner, hrest,
      Session.create_spares hc fun w => Ledger.wallet_of_isEmpty hempty⟩
  · simp only [bind_eq_ok_iff, liftM_eq_ok_iff, require_eq_ok_iff, exists_const,
      pure_eq_ok_iff] at h
    obtain ⟨seat, hl, howner, hsettled, rfl⟩ := h
    exact ⟨.kept hl howner hsettled, Ledger.owner_of_load hl, fun b _ => .refl _ b,
      fun v => .refl _ v⟩

/-- A granted bet. -/
structure Bet (slot : Nat) (spot : Spot) (amount : Nat) (accounts : List Access)
    (l m : Ledger) where
  signer : Access
  listed : signer ∈ accounts
  signed : signer.signed = true
  board : Board
  board_load : l.load .board .board = .ok board
  isOpen : board.isOpen slot = true
  table : Table
  table_load : l.load .table .table = .ok table
  upToDate : 1 ≤ board.round ∧ table.epoch = board.round - 1
  seat_listed : accounts[3]?.map Access.address = some (.seat signer.address)
  seat : Seat Address
  taken : Taken l signer.address table.epoch seat
  phase : Phase
  phase_eq : table.phase = .ok phase
  placed : Seat Address × Nat
  place : seat.place spot amount phase = .ok placed
  booked : Table
  reserve : table.reserve amount placed.2 = .ok booked
  /-- What is kept afterwards. -/
  table_after : m.load .table .table = .ok booked
  seat_after : m.load .seat (.seat signer.address) = .ok placed.1
  records : ∀ kind b, b ≠ .table → b ≠ .seat signer.address → b ≠ .wallet .vault .crap →
    m.load kind b = l.load kind b
  purses : ∀ o k, signer.address ≠ o → l.Purse o k → m.Purse o k ∧
    m.balance (.wallet o k)
      = l.balance (.wallet o k) + (if Address.wallet .vault .crap = .wallet o k then amount else 0)
  spares : ∀ v, signer.address ≠ v → .vault ≠ v → l.Purse .vault .crap → l.Spares m v

theorem bet_ok {slot : Nat} {spot : Spot} {amount : Nat} {accounts : List Access} {l : Ledger}
    {s : Session} (h : bet slot spot amount accounts l = .ok s) :
    Nonempty (Bet slot spot amount accounts l s.ledger) := by
  unfold bet at h
  split at h
  · next signer board table seat vault source chips mint system tokenProgram walletProgram =>
    simp only [bind_eq_ok_iff, Access.requireSigned_eq_ok_iff, Access.requireDerived_eq_ok_iff,
      Access.requireOwn_eq_ok_iff, Access.requireWritable_eq_ok_iff,
      Access.requireNamed_eq_ok_iff, Access.requireProgram_eq_ok_iff, liftM_eq_ok_iff,
      Board.requireOpen, require_eq_ok_iff, exists_const, pure_eq_ok_iff] at h
    obtain ⟨hsigned, hboard, b, hb, hopen, ⟨-, htable⟩, t, ht, ⟨-, hseat⟩, hvault, -, -, -, -, -, -,
      hround, taken, htaken, phase, hphase, placed, hplace, booked, hbook, s₁, hensure, s₂, hpay,
      rfl⟩ := h
    rw [hboard] at hb
    rw [htable] at ht hensure
    rw [hseat] at htaken hensure
    rw [hvault] at hensure
    obtain ⟨htook, howner, hag, htake⟩ := takeSeat_ok htaken
    obtain ⟨hchips, hopened, hpaid, hpurse⟩ := Session.deposit_ok (fun _ => False) hensure
      (fun b _ => .refl _ b) (fun _ hc => hc.elim) hpay
    have htable_owner : (taken.1.ledger .table).owner = .program := by
      rw [(hag .table (by simp)).owner]
      exact Ledger.owner_of_load ht
    rw [hchips] at hopened hpurse
    obtain ⟨mid, hmid⟩ : ∃ mid, (taken.1.ledger.store .seat (.seat signer.address) placed.1).store
        .table .table booked = mid := ⟨_, rfl⟩
    obtain ⟨hseat_mid, htable_mid, hwritten, hspared⟩ :=
      Ledger.store_both howner htable_owner (by simp) hmid
    rw [Session.ledger_store, Session.ledger_store, hmid] at hopened hpurse
    -- payments write no record, and the purse that may be opened holds none
    have hload : ∀ kind a, a ≠ .wallet .vault .crap →
        s₂.ledger.load kind a = mid.load kind a := by
      intro kind a ha
      exact (hpaid kind a).trans ((hopened a ha).load kind)
    have hstored : ∀ a, a ≠ .table → a ≠ .seat signer.address → Ledger.Agree l mid a := by
      intro a hat has
      exact (hag a has).trans (hwritten a has hat)
    refine ⟨{
      signer, listed := List.mem_cons_self, signed := hsigned
      board := b, board_load := hb, isOpen := hopen
      table := t, table_load := ht, upToDate := hround
      seat_listed := congrArg some hseat, seat := taken.2, taken := htook
      phase, phase_eq := hphase
      placed, place := hplace, booked, reserve := hbook
      table_after := ?_, seat_after := ?_, records := ?_, purses := ?_, spares := ?_ }⟩
    · rw [Session.ledger_note, hload .table .table (by simp), htable_mid]
    · rw [Session.ledger_note, hload .seat _ (by simp), hseat_mid]
    · intro kind a hat has hac
      rw [Session.ledger_note, hload kind a hac]
      exact (hstored a hat has).load kind
    · intro o k hne hp
      have hw := hstored (.wallet o k) (by simp) (by simp)
      obtain ⟨hp', hbal⟩ := hpurse o k hne not_false (hp.of_agree hw)
      rw [hw.balance] at hbal
      exact ⟨hp', hbal⟩
    · intro v hsigner hvault_ne hp
      rw [Session.ledger_note]
      have hpurse_mid : mid.Purse .vault .crap := hp.of_agree (hstored _ (by simp) (by simp))
      rw [← hmid] at hpurse_mid hspared
      exact (((htake v).trans (hspared v)).trans
        (Session.ensureWallet_spares hensure hpurse_mid hvault_ne)).trans
        (Session.transfer_spares hpay hsigner)
  · cases h

/-! ## Settling and clearing -/

/-- What the table books for a seat keeps the reservations exact, moves no money in or out, and
leaves the table solvent. -/
structure Deal (t t' : Table) (seat seat' : Seat Address) : Prop where
  sound : seat'.Sound
  reserved : t'.reserved + seat.exposure = t.reserved + seat'.exposure
  money : t'.bankroll + seat'.stakes + seat'.pending = t.bankroll + seat.stakes + seat.pending
  solvent : t.Solvent → t'.Solvent

/-- A settlement that was booked is a deal; the round up to which the seat was settled is no part of
it. -/
theorem deal_of_settled {t t' : Table} {seat : Seat Address} {settled : Seat Address × Tally}
    {epoch profit : Nat} (h : seat.Settled settled) (hprofit : profit = settled.2.profit)
    (hb : t.book profit settled.2.lost settled.2.released = .ok t') :
    Deal t t' seat { settled.1 with epoch } := by
  obtain ⟨hbank, hreserved⟩ := Table.book_ok hb
  have hmoney := h.stakes
  have hexposure := h.exposure
  have hst : ({ settled.1 with epoch } : Seat Address).stakes = settled.1.stakes :=
    Seat.total_congr _ rfl
  have hex : ({ settled.1 with epoch } : Seat Address).exposure = settled.1.exposure :=
    Seat.total_congr _ rfl
  refine ⟨h.sound.congr rfl, ?_, ?_, Table.solvent_book hb (hprofit ▸ h.covered)⟩
  · rw [hex]
    omega
  · rw [hst]
    simp only
    omega

/-- How a seat took its turn at a table that has the roll: it only moved up, or its wagers were
judged and what came of it was booked. -/
inductive Played (t : Table) (seat : Seat Address) (round : Nat) (roll : Roll)
    (fieldTriple : Bool) : Table → Seat Address → Prop where
  | sync (hturn : t.turn seat.epoch seat.hasRiding round = .ok .sync) :
    Played t seat round roll fieldTriple t { seat with epoch := round }
  | settle {phase : Phase} {settled : Seat Address × Tally} {booked : Table}
    (hturn : t.turn seat.epoch seat.hasRiding round = .ok (.settle phase))
    (hsettle : seat.settle phase roll fieldTriple = .ok settled)
    (hbook : t.book settled.2.profit settled.2.lost settled.2.released = .ok booked) :
    Played t seat round roll fieldTriple booked { settled.1 with epoch := round }

theorem playTurn_played {t : Table} {seat : Seat Address} {round : Nat} {roll : Roll}
    {fieldTriple : Bool} {turn : Table × Seat Address × String}
    (h : playTurn t seat round roll fieldTriple = .ok turn) :
    Played t seat round roll fieldTriple turn.1 turn.2.1 := by
  unfold playTurn at h
  rw [bind_eq_ok_iff] at h
  obtain ⟨way, hturn, h⟩ := h
  cases way with
  | sync =>
    rw [pure_eq_ok_iff] at h
    subst h
    exact .sync hturn
  | settle phase =>
    simp only [bind_eq_ok_iff, pure_eq_ok_iff] at h
    obtain ⟨settled, hsettle, booked, hbook, rfl⟩ := h
    exact .settle hturn hsettle hbook

section Played

variable {t t' : Table} {seat seat' : Seat Address} {round : Nat} {roll : Roll}
  {fieldTriple : Bool}

theorem Played.epoch (h : Played t seat round roll fieldTriple t' seat') :
    seat'.epoch = round := by
  cases h <;> rfl

theorem Played.line (h : Played t seat round roll fieldTriple t' seat') : t'.line = t.line := by
  cases h with
  | sync => rfl
  | settle _ _ hbook => exact Table.line_book hbook

theorem Played.owner (h : Played t seat round roll fieldTriple t' seat') (hs : seat.Sound) :
    seat'.owner = seat.owner := by
  cases h with
  | sync => rfl
  | settle _ hsettle _ => exact (Seat.settle_ok hs hsettle).owner

theorem Played.deal (h : Played t seat round roll fieldTriple t' seat') (hs : seat.Sound) :
    Deal t t' seat seat' := by
  cases h with
  | sync => exact ⟨hs.congr rfl, rfl, rfl, id⟩
  | settle _ hsettle hbook => exact deal_of_settled (Seat.settle_ok hs hsettle) rfl hbook

/-- No seat is ahead of the table. -/
theorem Played.le (h : Played t seat round roll fieldTriple t' seat') : round ≤ t.epoch := by
  have hturn : ∃ way, t.turn seat.epoch seat.hasRiding round = .ok way := by
    cases h with
    | sync hturn => exact ⟨_, hturn⟩
    | settle hturn => exact ⟨_, hturn⟩
  obtain ⟨way, hturn⟩ := hturn
  unfold Table.turn at hturn
  simp only [bind_eq_ok_iff, require_eq_ok_iff, exists_const] at hturn
  exact hturn.1

end Played

/-- A granted settlement. -/
structure Settlement (accounts : List Access) (l m : Ledger) where
  settings : Settings Address
  settings_load : l.load .settings .settings = .ok settings
  table : Table
  table_load : l.load .table .table = .ok table
  seat : Seat Address
  seat_listed : accounts[3]?.map Access.address = some (.seat seat.owner)
  seat_load : l.load .seat (.seat seat.owner) = .ok seat
  round : Round Address
  round_listed : accounts[4]?.map Access.address = some (.round round.id)
  round_load : l.load .round (.round round.id) = .ok round
  roll : Roll
  roll_eq : round.roll = .ok roll
  rolled : Table × Option Call
  catchUp : table.catchUp round.id roll = .ok rolled
  turn : Table × Seat Address × String
  play : playTurn rolled.1 seat round.id roll settings.fieldTriple = .ok turn
  /-- What is kept afterwards. -/
  table_after : m.load .table .table = .ok turn.1
  seat_after : m.load .seat (.seat seat.owner) = .ok turn.2.1
  rest : ∀ b, b ≠ .table → b ≠ .seat seat.owner → Ledger.Agree l m b

theorem settle_ok {accounts : List Access} {l : Ledger} {s : Session}
    (h : settle accounts l = .ok s) : Nonempty (Settlement accounts l s.ledger) := by
  unfold settle at h
  split at h
  · next signer settings table seat round =>
    simp only [bind_eq_ok_iff, Access.requireSigned_eq_ok_iff, Access.requireDerived_eq_ok_iff,
      Access.requireOwn_eq_ok_iff, Access.requireWritable_eq_ok_iff, liftM_eq_ok_iff,
      exists_const, pure_eq_ok_iff] at h
    obtain ⟨-, hsettings, config, hconfig, ⟨-, htable⟩, t, ht, -, taken, htaken, hseat, r, hr,
      hround, roll, hroll, rolled, hrolled, turn, hturn, hs⟩ := h
    rw [hsettings] at hconfig
    rw [htable] at ht
    rw [hseat] at htaken
    rw [hround] at hr
    -- a roll that the table took only adds a line to the log
    have hm : s.ledger =
        (l.store .table .table turn.1).store .seat (.seat taken.owner) turn.2.1 := by
      rw [← hs]
      simp only [Session.ledger_note, Session.ledger_store, htable, hseat]
      split <;> rfl
    obtain ⟨htable_after, hseat_after, hrest, -⟩ :=
      Ledger.store_both (Ledger.owner_of_load ht) (Ledger.owner_of_load htaken) (by simp) hm.symm
    exact ⟨{
      settings := config, settings_load := hconfig, table := t, table_load := ht
      seat := taken, seat_listed := congrArg some hseat, seat_load := htaken
      round := r, round_listed := congrArg some hround, round_load := hr, roll, roll_eq := hroll
      rolled, catchUp := hrolled, turn, play := hturn
      table_after := htable_after, seat_after := hseat_after, rest := hrest }⟩
  · cases h

/-- A granted request to bring the table up to a round. -/
structure Advance (accounts : List Access) (l m : Ledger) where
  table : Table
  table_load : l.load .table .table = .ok table
  round : Round Address
  round_load : l.load .round (.round round.id) = .ok round
  roll : Roll
  roll_eq : round.roll = .ok roll
  rolled : Table × Option Call
  catchUp : table.catchUp round.id roll = .ok rolled
  /-- What is kept afterwards. -/
  table_after : m.load .table .table = .ok rolled.1
  rest : ∀ b, b ≠ .table → Ledger.Agree l m b

theorem advance_ok {accounts : List Access} {l : Ledger} {s : Session}
    (h : advance accounts l = .ok s) : Nonempty (Advance accounts l s.ledger) := by
  unfold advance at h
  split at h
  · next signer table round =>
    simp only [bind_eq_ok_iff, Access.requireSigned_eq_ok_iff, Access.requireDerived_eq_ok_iff,
      Access.requireOwn_eq_ok_iff, liftM_eq_ok_iff, exists_const] at h
    obtain ⟨-, ⟨-, htable⟩, t, ht, r, hr, hround, roll, hroll, rolled, hrolled, hs⟩ := h
    rw [htable] at ht
    rw [hround] at hr
    split at hs
    · next hnone =>
      rw [pure_eq_ok_iff] at hs
      subst hs
      have hsame : rolled.1 = t := Table.catchUp_none (by rw [hrolled, ← hnone])
      exact ⟨{
        table := t, table_load := ht, round := r, round_load := hr, roll, roll_eq := hroll
        rolled, catchUp := hrolled, table_after := by rw [hsame]; exact ht
        rest := fun b _ => .refl l b }⟩
    · next call hsome =>
      rw [pure_eq_ok_iff] at hs
      subst hs
      refine ⟨{
        table := t, table_load := ht, round := r, round_load := hr, roll, roll_eq := hroll
        rolled, catchUp := hrolled, table_after := ?_, rest := ?_ }⟩
      · rw [Session.ledger_note, Session.ledger_store, htable]
        exact Ledger.load_store l .table _ rolled.1 (Ledger.owner_of_load ht)
      · intro b hb
        rw [Session.ledger_note, Session.ledger_store, htable]
        exact Ledger.agree_store _ _ _ hb
  · cases h

/-- A granted forfeiture. -/
structure Forfeiture (accounts : List Access) (l m : Ledger) where
  table : Table
  table_load : l.load .table .table = .ok table
  seat : Seat Address
  seat_listed : accounts[2]?.map Access.address = some (.seat seat.owner)
  seat_load : l.load .seat (.seat seat.owner) = .ok seat
  forgotten : seat.hasRiding = true ∧ table.isBeyondLog seat.epoch = true
  cleared : Seat Address × Tally
  clear : seat.forfeit = .ok cleared
  booked : Table
  book : table.book 0 cleared.2.lost cleared.2.released = .ok booked
  /-- What is kept afterwards. -/
  table_after : m.load .table .table = .ok booked
  seat_after : m.load .seat (.seat seat.owner) = .ok { cleared.1 with epoch := booked.epoch }
  rest : ∀ b, b ≠ .table → b ≠ .seat seat.owner → Ledger.Agree l m b

theorem forfeit_ok {accounts : List Access} {l : Ledger} {s : Session}
    (h : forfeit accounts l = .ok s) : Nonempty (Forfeiture accounts l s.ledger) := by
  unfold forfeit at h
  split at h
  · next signer table seat =>
    simp only [bind_eq_ok_iff, Access.requireSigned_eq_ok_iff, Access.requireDerived_eq_ok_iff,
      Access.requireOwn_eq_ok_iff, Access.requireWritable_eq_ok_iff, liftM_eq_ok_iff,
      require_eq_ok_iff, exists_const, pure_eq_ok_iff] at h
    obtain ⟨-, ⟨-, htable⟩, t, ht, -, taken, htaken, hseat, hforgotten, cleared, hclear, booked,
      hbook, rfl⟩ := h
    rw [htable] at ht
    rw [hseat] at htaken
    simp only [Session.ledger_note, Session.ledger_store, htable, hseat]
    obtain ⟨htable_after, hseat_after, hrest, -⟩ :=
      Ledger.store_both (Ledger.owner_of_load ht) (Ledger.owner_of_load htaken) (by simp) rfl
    exact ⟨{
      table := t, table_load := ht
      seat := taken, seat_listed := congrArg some hseat, seat_load := htaken
      forgotten := hforgotten, cleared, clear := hclear, booked, book := hbook
      table_after := htable_after, seat_after := hseat_after, rest := hrest }⟩
  · cases h

end DiceHouse.Operation
