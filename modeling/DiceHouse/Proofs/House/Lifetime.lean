import DiceHouse.Proofs.House.Run
import DiceHouse.Proofs.Seat.Totals
import DiceHouse.Proofs.Table.Bookings

/-!
# Lifetime ledgers

The table counts over its life what was staked, lost and won, and so does every seat. One event is
entered on both sides, and by different parts of the program: on the seat as its wagers are placed,
judged or cleared, and on the table from the tally that comes out of it. `TableEntry` and `SeatEntry`
say what each side enters, and a granted request makes both entries with the same figures. So the
two sides agree at all times, and with what was put into the bankroll and what was collected.
-/

namespace DiceHouse

namespace Ledger

variable {l m : Ledger} {o : Address}

/-! ## Figures -/

/-- A figure of the table; nothing as long as there is none. -/
def tableFigure (l : Ledger) (figure : Table → Nat) : Nat :=
  ((l.recordAt .table .table : Multiset Table).map figure).sum

/-- A figure of the seat of a player; nothing if there is none. -/
def seatFigure (l : Ledger) (o : Address) (figure : Seat Address → Nat) : Nat :=
  ((l.recordAt .seat (.seat o) : Multiset (Seat Address)).map figure).sum

/-- A figure of all seats together. -/
def seatsFigure (l : Ledger) (figure : Seat Address → Nat) : Nat := (l.seats.map figure).sum

theorem tableFigure_of_load {t : Table} (h : l.load .table .table = .ok t)
    (figure : Table → Nat) : l.tableFigure figure = figure t := by
  unfold tableFigure
  rw [recordAt_of_load h]
  exact Multiset.sum_singleton _

theorem tableFigure_of_absent (h : ∀ t, l.load .table .table ≠ .ok t) (figure : Table → Nat) :
    l.tableFigure figure = 0 := by
  unfold tableFigure
  rw [recordAt_of_absent h]
  rfl

theorem seatFigure_of_load {s : Seat Address} (h : l.load .seat (.seat o) = .ok s)
    (figure : Seat Address → Nat) : l.seatFigure o figure = figure s := by
  unfold seatFigure
  rw [recordAt_of_load h]
  exact Multiset.sum_singleton _

theorem seatFigure_of_absent (h : ∀ s, l.load .seat (.seat o) ≠ .ok s)
    (figure : Seat Address → Nat) : l.seatFigure o figure = 0 := by
  unfold seatFigure
  rw [recordAt_of_absent h]
  rfl

theorem seatFigure_congr (h : m.load .seat (.seat o) = l.load .seat (.seat o))
    (figure : Seat Address → Nat) : m.seatFigure o figure = l.seatFigure o figure := by
  unfold seatFigure
  rw [recordAt_congr h]

/-- If one seat alone is written, a figure of all seats changes by that of the one. -/
theorem seatsFigure_update (h : ∀ a, a ≠ o → m.load .seat (.seat a) = l.load .seat (.seat a))
    (figure : Seat Address → Nat) :
    m.seatsFigure figure + l.seatFigure o figure
      = l.seatsFigure figure + m.seatFigure o figure := by
  have hseat : (Address.seat o).isSeat = true := rfl
  exact sum_kept_update _ hseat (isSeat_frame h)

/-! ## Entries -/

/-- What the table enters: what it is funded with, stake that was placed, and what was lost and
won. -/
structure TableEntry (l m : Ledger) (funded stake lost profit : Nat) : Prop where
  bankroll : m.tableFigure Table.bankroll + profit = l.tableFigure Table.bankroll + lost + funded
  wagered : m.tableFigure Table.totalWagered = l.tableFigure Table.totalWagered + stake
  collected : m.tableFigure Table.totalCollected = l.tableFigure Table.totalCollected + lost
  payouts : m.tableFigure Table.totalPayouts = l.tableFigure Table.totalPayouts + profit

/-- What the seat of a player enters, and no other: what was paid out of it, stake that was placed,
and what was lost and won. -/
structure SeatEntry (l m : Ledger) (o : Address) (paid stake lost profit : Nat) : Prop where
  others : ∀ a, a ≠ o → m.load .seat (.seat a) = l.load .seat (.seat a)
  wagered : m.seatFigure o Seat.totalWagered = l.seatFigure o Seat.totalWagered + stake
  lost_total : m.seatFigure o Seat.totalLost = l.seatFigure o Seat.totalLost + lost
  won_total : m.seatFigure o Seat.totalWon = l.seatFigure o Seat.totalWon + profit
  standing : m.seatFigure o Seat.stakes + m.seatFigure o Seat.pending + lost + paid
    = l.seatFigure o Seat.stakes + l.seatFigure o Seat.pending + stake + profit

theorem TableEntry.same (h : m.load .table .table = l.load .table .table) :
    TableEntry l m 0 0 0 0 := by
  have hfigure : ∀ figure, m.tableFigure figure = l.tableFigure figure := by
    intro figure
    unfold tableFigure
    rw [recordAt_congr h]
  exact ⟨hfigure _, hfigure _, hfigure _, hfigure _⟩

theorem SeatEntry.same (h : ∀ a, m.load .seat (.seat a) = l.load .seat (.seat a)) (o : Address) :
    SeatEntry l m o 0 0 0 0 := by
  have hfigure : ∀ figure, m.seatFigure o figure = l.seatFigure o figure := seatFigure_congr (h o)
  refine ⟨fun a _ => h a, hfigure _, hfigure _, hfigure _, ?_⟩
  rw [hfigure, hfigure]

/-- A table that was read and written enters what it changed by. -/
theorem TableEntry.of_load {t t' : Table} {funded stake lost profit : Nat}
    (hl : l.load .table .table = .ok t) (hm : m.load .table .table = .ok t')
    (hbankroll : t'.bankroll + profit = t.bankroll + lost + funded)
    (hwagered : t'.totalWagered = t.totalWagered + stake)
    (hcollected : t'.totalCollected = t.totalCollected + lost)
    (hpayouts : t'.totalPayouts = t.totalPayouts + profit) :
    TableEntry l m funded stake lost profit := by
  constructor
  all_goals rw [tableFigure_of_load hl, tableFigure_of_load hm]
  · exact hbankroll
  · exact hwagered
  · exact hcollected
  · exact hpayouts

/-- So does a seat, whatever it showed before. -/
theorem SeatEntry.of_load {s s' : Seat Address} {paid stake lost profit : Nat}
    (others : ∀ a, a ≠ o → m.load .seat (.seat a) = l.load .seat (.seat a))
    (hl : l.load .seat (.seat o) = .ok s) (hm : m.load .seat (.seat o) = .ok s')
    (hwagered : s'.totalWagered = s.totalWagered + stake)
    (hlost : s'.totalLost = s.totalLost + lost) (hwon : s'.totalWon = s.totalWon + profit)
    (hstanding : s'.stakes + s'.pending + lost + paid = s.stakes + s.pending + stake + profit) :
    SeatEntry l m o paid stake lost profit := by
  refine ⟨others, ?_, ?_, ?_, ?_⟩
  all_goals simp only [seatFigure_of_load hl, seatFigure_of_load hm]
  · exact hwagered
  · exact hlost
  · exact hwon
  · exact hstanding

/-! ## Agreement -/

/-- Table and seats agree, with so much funded and so much collected by each player. -/
structure Accounted (l : Ledger) (funded : Nat) (collected : Address → Nat) : Prop where
  bankroll : l.tableFigure Table.bankroll + l.tableFigure Table.totalPayouts
    = funded + l.tableFigure Table.totalCollected
  wagered : l.tableFigure Table.totalWagered = l.seatsFigure Seat.totalWagered
  lost : l.tableFigure Table.totalCollected = l.seatsFigure Seat.totalLost
  won : l.tableFigure Table.totalPayouts = l.seatsFigure Seat.totalWon
  seat : ∀ o, l.seatFigure o Seat.totalWagered + l.seatFigure o Seat.totalWon
    = l.seatFigure o Seat.stakes + l.seatFigure o Seat.totalLost + l.seatFigure o Seat.pending
      + collected o

theorem accounted_genesis (used : List Address) :
    (Ledger.genesis used).Accounted 0 fun _ => 0 where
  bankroll := rfl
  wagered := rfl
  lost := rfl
  won := rfl
  seat _ := rfl

/-- Two entries with the same figures keep table and seats in agreement. -/
theorem Accounted.enter {funded paid stake lost profit brought : Nat}
    {collected : Address → Nat} (h : l.Accounted funded collected)
    (ht : TableEntry l m brought stake lost profit) (hs : SeatEntry l m o paid stake lost profit) :
    m.Accounted (funded + brought) fun a => collected a + if a = o then paid else 0 := by
  obtain ⟨hbankroll, hwagered, hlost, hwon, hseat⟩ := h
  obtain ⟨tbankroll, twagered, tcollected, tpayouts⟩ := ht
  obtain ⟨sothers, swagered, slost, swon, sstanding⟩ := hs
  -- over all seats a figure changes as it does on the one that makes the entry
  have uwagered := seatsFigure_update sothers Seat.totalWagered
  have ulost := seatsFigure_update sothers Seat.totalLost
  have uwon := seatsFigure_update sothers Seat.totalWon
  refine ⟨by omega, by omega, by omega, by omega, fun a => ?_⟩
  have hbefore := hseat a
  by_cases ha : a = o
  · subst ha
    rw [if_pos rfl]
    omega
  · have hsame := sothers a ha
    simp only [seatFigure_congr hsame, if_neg ha, Nat.add_zero]
    exact hbefore

end Ledger

namespace House

open Ledger

variable {accounts : List Access} {l m : Ledger} {slot : Nat}

/-! ## Money that comes and goes -/

/-- The money of a granted request: what it adds to the bankroll, and what is collected with it by
each player. -/
structure Cash where
  funded : Nat
  collected : Address → Nat

/-- No money at all. -/
def Cash.none : Cash := ⟨0, fun _ => 0⟩

/-- The money of a request that led to a session: one to fund the table says how much it adds, and one
to collect pays players out of the chips. -/
def cashOf (request : Request) (s : Session) : Cash :=
  match request with
  | .fund amount => { Cash.none with funded := amount }
  | .collect =>
    { Cash.none with collected := fun o => s.paid (.wallet .vault .crap) (.wallet o .crap) }
  | _ => .none

/-- Table and one seat make entries with the same figures, for the money that came and went. -/
inductive Entered (l m : Ledger) (cash : Cash) : Prop where
  | intro {o : Address} {paid stake lost profit : Nat}
    (table : TableEntry l m cash.funded stake lost profit)
    (seat : SeatEntry l m o paid stake lost profit)
    (collected : ∀ a, cash.collected a = if a = o then paid else 0)

/-- What leaves all seats as they are, and the table but for what it is funded with. -/
theorem Entered.of_seats {cash : Cash}
    (htable : TableEntry l m cash.funded 0 0 0)
    (hseats : ∀ a, m.load .seat (.seat a) = l.load .seat (.seat a))
    (hcash : ∀ a, cash.collected a = 0) : Entered l m cash :=
  .intro htable (.same hseats .system) fun a => by rw [hcash, ite_self]

theorem Entered.none (htable : m.load .table .table = l.load .table .table)
    (hseats : ∀ a, m.load .seat (.seat a) = l.load .seat (.seat a)) : Entered l m .none :=
  .of_seats (.same htable) hseats fun _ => rfl

/-! ## What table and seat book alike -/

/-- A table and a seat that book the same losses and the same profit. -/
structure Matched (t t' : Table) (s s' : Seat Address) (lost profit : Nat) : Prop where
  bankroll : t'.bankroll + profit = t.bankroll + lost
  wagered : t'.totalWagered = t.totalWagered
  collected : t'.totalCollected = t.totalCollected + lost
  payouts : t'.totalPayouts = t.totalPayouts + profit
  seat_wagered : s'.totalWagered = s.totalWagered
  seat_lost : s'.totalLost = s.totalLost + lost
  seat_won : s'.totalWon = s.totalWon + profit
  standing : s'.stakes + s'.pending + lost = s.stakes + s.pending + profit

section Matched

variable {t t' : Table} {s s' : Seat Address} {epoch lost profit : Nat}

/-- The table is handed the tally that the seat was credited with. -/
theorem matched_of_settled {settled : Seat Address × Tally} (h : s.Settled settled)
    (hcredited : s.Credited settled.2 settled.1)
    (hbook : t.book settled.2.profit settled.2.lost settled.2.released = .ok t') :
    Matched t t' s { settled.1 with epoch } settled.2.lost settled.2.profit := by
  have hbooked := (Table.Booked.refl t).book hbook
  have hstakes : ({ settled.1 with epoch } : Seat Address).stakes = settled.1.stakes :=
    Seat.total_congr _ rfl
  refine ⟨?_, hbooked.wagered, ?_, ?_, hcredited.wagered, hcredited.lost, hcredited.won, ?_⟩
  · simpa only [zero_add] using hbooked.bankroll
  · simpa only [zero_add] using hbooked.collected
  · simpa only [zero_add] using hbooked.payouts
  · rw [hstakes]
    exact h.stakes

theorem matched_of_played {round : Nat} {roll : Roll} {fieldTriple : Bool}
    (h : Operation.Played t s round roll fieldTriple t' s') (hs : s.Sound) :
    ∃ lost profit, Matched t t' s s' lost profit := by
  cases h with
  | sync =>
    have hstakes : ({ s with epoch := round } : Seat Address).stakes = s.stakes :=
      Seat.total_congr _ rfl
    refine ⟨0, 0, rfl, rfl, rfl, rfl, rfl, rfl, rfl, ?_⟩
    rw [hstakes]
  | settle _ hsettle hbook =>
    exact ⟨_, _, matched_of_settled (Seat.settle_ok hs hsettle) (Seat.settle_credited hsettle) hbook⟩

/-- The roll that a table takes before moves no money. -/
theorem Matched.of_catchUp {round : Nat} {roll : Roll} {rolled : Table × Option Call}
    (hcatch : t.catchUp round roll = .ok rolled) (h : Matched rolled.1 t' s s' lost profit) :
    Matched t t' s s' lost profit := by
  obtain ⟨hbankroll, -, hcollected, hpayouts⟩ := Table.catchUp_ok hcatch
  have hwagered := Table.totalWagered_catchUp hcatch
  refine { h with bankroll := ?_, wagered := ?_, collected := ?_, payouts := ?_ }
  · rw [h.bankroll, hbankroll]
  · rw [h.wagered, hwagered]
  · rw [h.collected, hcollected]
  · rw [h.payouts, hpayouts]

theorem Matched.entered {o : Address} (h : Matched t t' s s' lost profit)
    (hl : l.load .table .table = .ok t) (hm : m.load .table .table = .ok t')
    (hframe : ∀ a, a ≠ o → m.load .seat (.seat a) = l.load .seat (.seat a))
    (hs : l.load .seat (.seat o) = .ok s) (hs' : m.load .seat (.seat o) = .ok s') :
    Entered l m .none := by
  have htable : TableEntry l m 0 0 lost profit :=
    .of_load hl hm h.bankroll h.wagered h.collected h.payouts
  have hstanding := h.standing
  have hseat : SeatEntry l m o 0 0 lost profit :=
    .of_load hframe hs hs' h.seat_wagered h.seat_lost h.seat_won (by omega)
  exact .intro htable hseat fun _ => (ite_self 0).symm

end Matched

/-! ## Each request -/

section Each

variable {amount : Nat} {spot : Spot}

theorem entered_opening (g : Operation.Opening slot accounts l m) : Entered l m .none := by
  have hblank : ∀ figure : Table → Nat,
      m.tableFigure figure = figure (Table.blank.setPhase .comeOut) :=
    tableFigure_of_load g.table_after
  have habsent : ∀ figure, l.tableFigure figure = 0 := tableFigure_of_absent g.table_absent
  have htable : TableEntry l m 0 0 0 0 := by
    constructor
    all_goals
      rw [hblank, habsent]
      rfl
  exact .of_seats htable
    (fun a => (g.rest _ (by simp) (by simp) (by simp) (by simp) (by simp)).load _) fun _ => rfl

/-- A seat that is taken shows what the player's seat showed, which is nothing if there was none. -/
theorem seatFigure_of_taken {signer : Address} {epoch : Nat} {seat : Seat Address}
    (h : Operation.Taken l signer epoch seat) {figure : Seat Address → Nat}
    (hepoch : ∀ s : Seat Address, figure { s with epoch } = figure s)
    (hblank : figure (Seat.blank signer) = 0) : l.seatFigure signer figure = figure seat := by
  cases h with
  | fresh habsent => rw [seatFigure_of_absent habsent, hepoch, hblank]
  | kept hkept _ _ => rw [seatFigure_of_load hkept, hepoch]

theorem entered_bet (hs : l.SeatsSound) (g : Operation.Bet slot spot amount accounts l m) :
    Entered l m .none := by
  obtain ⟨-, hbankroll, -⟩ := Table.reserve_ok g.reserve
  obtain ⟨hwagered, hcollected, hpayouts⟩ := Table.totals_reserve g.reserve
  have htable : TableEntry l m 0 amount 0 0 :=
    .of_load g.table_load g.table_after hbankroll hwagered hcollected hpayouts
  have hplaced := Seat.place_ok (sound_of_taken hs g.taken) g.place
  obtain ⟨hseat_wagered, hseat_won, hseat_lost⟩ := Seat.place_totals g.place
  have hafter : ∀ figure, m.seatFigure g.signer.address figure = figure g.placed.1 :=
    seatFigure_of_load g.seat_after
  have hstakes : l.seatFigure g.signer.address Seat.stakes = g.seat.stakes :=
    seatFigure_of_taken g.taken (fun _ => Seat.total_congr _ rfl) (Seat.stakes_blank _)
  have hseat : SeatEntry l m g.signer.address 0 amount 0 0 := by
    refine ⟨fun a ha => g.records .seat _ (by simp) (by simpa using ha) (by simp), ?_, ?_, ?_, ?_⟩
    · rw [hafter, seatFigure_of_taken g.taken (fun _ => rfl) rfl]
      exact hseat_wagered
    · rw [hafter, seatFigure_of_taken g.taken (fun _ => rfl) rfl]
      exact hseat_lost
    · rw [hafter, seatFigure_of_taken g.taken (fun _ => rfl) rfl]
      exact hseat_won
    · rw [hafter, hafter, hstakes, seatFigure_of_taken g.taken (fun _ => rfl) rfl,
        hplaced.stakes, hplaced.pending]
      omega
  exact .intro htable hseat fun _ => (ite_self 0).symm

theorem entered_settlement (hs : l.SeatsSound) (g : Operation.Settlement accounts l m) :
    Entered l m .none := by
  obtain ⟨lost, profit, hmatched⟩ :=
    matched_of_played (Operation.playTurn_played g.play) (sound_of_load hs g.seat_load)
  exact (hmatched.of_catchUp g.catchUp).entered g.table_load g.table_after
    (fun a ha => (g.rest _ (by simp) (by simpa using ha)).load _) g.seat_load g.seat_after

theorem entered_advance (g : Operation.Advance accounts l m) : Entered l m .none := by
  obtain ⟨hbankroll, -, hcollected, hpayouts⟩ := Table.catchUp_ok g.catchUp
  have hwagered := Table.totalWagered_catchUp g.catchUp
  exact .of_seats (.of_load g.table_load g.table_after hbankroll hwagered hcollected hpayouts)
    (fun a => (g.rest (.seat a) (by simp)).load _) fun _ => rfl

theorem entered_forfeiture (hs : l.SeatsSound) (g : Operation.Forfeiture accounts l m) :
    Entered l m .none := by
  have hsettled := Seat.forfeit_ok (sound_of_load hs g.seat_load) g.clear
  -- the table is told that there is no profit, and indeed the tally has none
  have hbook : g.table.book g.cleared.2.profit g.cleared.2.lost g.cleared.2.released
      = .ok g.booked := by
    rw [Seat.profit_forfeit g.clear]
    exact g.book
  exact (matched_of_settled hsettled (Seat.forfeit_credited g.clear).1 hbook).entered g.table_load
    g.table_after (fun a ha => (g.rest _ (by simp) (by simpa using ha)).load _) g.seat_load
    g.seat_after

theorem entered_funding (g : Operation.Funding amount accounts l m) :
    Entered l m { Cash.none with funded := amount } := by
  obtain ⟨hbankroll, -⟩ := Table.fund_ok g.fund
  obtain ⟨hwagered, hcollected, hpayouts⟩ := Table.totals_fund g.fund
  exact .of_seats (.of_load g.table_load g.table_after hbankroll hwagered hcollected hpayouts)
    (fun a => g.records .seat (.seat a) (by simp) (by simp)) fun _ => rfl

/-- What is paid out of a seat was pending there. -/
theorem entered_collection (g : Operation.Collection accounts l m) {collected : Address → Nat}
    (hpaid : ∀ o, collected o = if g.signer.address = o then g.seat.pending else 0) :
    Entered l m { Cash.none with collected } := by
  have hstakes : ({ g.seat with pending := 0 } : Seat Address).stakes = g.seat.stakes :=
    Seat.total_congr _ rfl
  have hseat : SeatEntry l m g.signer.address g.seat.pending 0 0 0 := by
    refine .of_load (fun a ha => g.records .seat _ (by simpa using ha)) g.seat_load g.seat_after
      rfl rfl rfl ?_
    rw [hstakes]
    simp only
    omega
  exact .intro (.same (g.records .table _ (by simp))) hseat fun a =>
    (hpaid a).trans (if_congr eq_comm rfl rfl)

end Each

/-- A granted request is entered alike on the table and on a seat, for the money it moves. -/
theorem serve_entered {request : Request} {s : Session} (hs : l.SeatsSound)
    (h : serve slot request accounts l = .ok s) : Entered l s.ledger (cashOf request s) := by
  cases request with
  | openHouse => exact (Operation.openHouse_ok h).elim entered_opening
  | configure settings =>
    obtain ⟨g⟩ := Operation.configure_ok h
    exact .none ((g.rest _ (by simp)).load _) fun a => (g.rest _ (by simp)).load _
  | stake amount square prediction =>
    obtain ⟨g⟩ := Operation.stake_ok h
    exact .none (g.records _ _ (by simp) (by simp) (by simp))
      fun a => g.records _ _ (by simp) (by simp) (by simp)
  | resolve =>
    rcases Operation.resolve_ok h with ⟨⟨g⟩⟩ | ⟨⟨g⟩⟩
    · exact .none ((g.rest _ (by simp)).load _) fun a => (g.rest _ (by simp)).load _
    · exact .none (g.records _ _ (by simp) (by simp) (by simp) (by simp) (by simp))
        fun a => g.records _ _ (by simp) (by simp) (by simp) (by simp) (by simp)
  | claim =>
    obtain ⟨g, -⟩ := Operation.claim_ok h
    exact .none (g.records _ _ (by simp) (by simp) (by simp))
      fun a => g.records _ _ (by simp) (by simp) (by simp)
  | bet amount kindCode number =>
    simp only [serve, bind_eq_ok_iff, liftM_eq_ok_iff] at h
    obtain ⟨spot, -, h⟩ := h
    exact (Operation.bet_ok h).elim (entered_bet hs)
  | settle => exact (Operation.settle_ok h).elim (entered_settlement hs)
  | advance => exact (Operation.advance_ok h).elim entered_advance
  | collect =>
    obtain ⟨g, hpaid⟩ := Operation.collect_ok h
    exact entered_collection g hpaid
  | fund amount => exact (Operation.fund_ok h).elim entered_funding
  | forfeit => exact (Operation.forfeit_ok h).elim (entered_forfeiture hs)

/-- Entries on both sides keep table and seats in agreement. -/
theorem Entered.accounted {cash : Cash} {funded : Nat} {collected : Address → Nat}
    (h : Entered l m cash) (hl : l.Accounted funded collected) :
    m.Accounted (funded + cash.funded) fun a => collected a + cash.collected a := by
  obtain ⟨htable, hseat, hcollected⟩ := h
  have hafter := hl.enter htable hseat
  simp only [← hcollected] at hafter
  exact hafter

/-! ## Whole runs -/

/-- The money of a call, if it is granted. -/
def cashWith? (l : Ledger) (call : Nat × Instruction) : Option Cash :=
  reportOf (fun request _ s => some (cashOf request s)) l call

theorem step_entered (hs : l.SeatsSound) (call : Nat × Instruction) :
    Entered l (step l call) ((cashWith? l call).getD .none) := by
  unfold cashWith?
  refine step_report (P := fun m label => Entered l m (label.getD .none))
    (.none rfl fun _ => rfl) fun {request s} h => ?_
  rw [Option.getD_some]
  exact serve_entered hs h

namespace Run

variable {allowed : Instruction → Prop} {outside : Ledger → Ledger → Prop}

/-- The money of the call between a moment and the next. -/
def cash (run : Run allowed outside) (k : Nat) : Cash := (run.told? cashWith? k).getD .none

/-- What the table was funded with before a moment. -/
def funded (run : Run allowed outside) (k : Nat) : Nat :=
  ∑ j ∈ Finset.range k, (run.cash j).funded

/-- What a player collected before a moment. -/
def collected (run : Run allowed outside) (o : Address) (k : Nat) : Nat :=
  ∑ j ∈ Finset.range k, (run.cash j).collected o

theorem entered (run : Run allowed Ledger.Outside) (k : Nat) :
    Entered (run.ledger k) (run.ledger (k + 1)) (run.cash k) := by
  obtain ⟨-, hentered⟩ := run.exists_told
    (P := fun _ l m label => Entered l m (Option.getD label .none)) k
    (fun call => step_entered (run.seatsSound k) call)
    fun ho => .none (table_outside ho) fun _ => ho.load (by simp [Address.seeds?]) _
  exact hentered

/-- At every moment table and seats agree, and with the money that came and went until then. -/
theorem accounted (run : Run allowed Ledger.Outside) (k : Nat) :
    (run.ledger k).Accounted (run.funded k) fun o => run.collected o k := by
  unfold funded collected
  induction k with
  | zero =>
    rw [ledger_zero]
    exact accounted_genesis run.used
  | succ k ih =>
    have hnext := (run.entered k).accounted ih
    simp only [Finset.sum_range_succ]
    exact hnext

end Run

/-- Table and seats keep the same lifetime ledgers. The bankroll is what the table was funded with
and what it collected, less what it paid out; what it counts as staked, lost and won is what all
seats together do; and what was staked at a seat and won there rides, was lost, waits to be collected
or was collected. -/
theorem lifetime_ledgers_agree (run : Run Authentic Ledger.Outside) (k : Nat) :
    (∀ t, (run.ledger k).load .table .table = .ok t →
      t.bankroll + t.totalPayouts = run.funded k + t.totalCollected ∧
        t.totalWagered = ((run.ledger k).seats.map Seat.totalWagered).sum ∧
        t.totalCollected = ((run.ledger k).seats.map Seat.totalLost).sum ∧
        t.totalPayouts = ((run.ledger k).seats.map Seat.totalWon).sum) ∧
      ∀ o s, (run.ledger k).load .seat (.seat o) = .ok s →
        ∃ risk, s.atRisk = .ok risk ∧
          s.totalWagered + s.totalWon = risk + s.totalLost + s.pending + run.collected o k := by
  obtain ⟨hbankroll, hwagered, hlost, hwon, hseat⟩ := run.accounted k
  refine ⟨fun t ht => ?_, fun o s hs => ?_⟩
  · simp only [tableFigure_of_load ht] at hbankroll hwagered hlost hwon
    exact ⟨hbankroll, hwagered, hlost, hwon⟩
  · have hrisk : s.atRisk = .ok s.stakes :=
      atRisk_of_mem (run.reachable k).chipsCover (mem_seats.mpr ⟨o, hs⟩)
    have hfigures := hseat o
    simp only [seatFigure_of_load hs] at hfigures
    exact ⟨s.stakes, hrisk, hfigures⟩

/-! ## A first win -/

theorem firstWin_moment :
    ((firstWin.ledger 10).load .table .table).toOption.map (fun t =>
        (t.bankroll, t.totalWagered, t.totalCollected, t.totalPayouts)) = some (958, 40, 20, 62) ∧
      ((firstWin.ledger 10).load .seat (.seat .admin)).toOption.map (fun s =>
        (s.atRisk, s.totalWagered, s.totalLost, s.totalWon, s.pending))
          = some (.ok 10, 40, 20, 62, 0) := by
  decide +kernel

/-- The bankroll of 958 is the 1000 put in and the 20 lost, less the 62 paid; of the 40 staked and 62
won, 10 ride, 20 were lost and 72 collected. -/
theorem lifetime_ledgers_agree_firstWin :
    ∃ t s, (firstWin.ledger 10).load .table .table = .ok t ∧
      (firstWin.ledger 10).load .seat (.seat .admin) = .ok s ∧ t.bankroll = 958 ∧
      t.totalPayouts = 62 ∧ t.totalCollected = 20 ∧ firstWin.funded 10 = 1000 ∧
      ((firstWin.ledger 10).seats.map Seat.totalWagered).sum = 40 ∧
      ((firstWin.ledger 10).seats.map Seat.totalLost).sum = 20 ∧
      ((firstWin.ledger 10).seats.map Seat.totalWon).sum = 62 ∧
      s.atRisk = .ok 10 ∧ s.pending = 0 ∧ firstWin.collected .admin 10 = 72 := by
  obtain ⟨htable, hseat⟩ := firstWin_moment
  obtain ⟨t, ht, hfigures⟩ := exists_of_toOption_map htable
  obtain ⟨s, hs, hseatFigures⟩ := exists_of_toOption_map hseat
  simp only [Prod.mk.injEq] at hfigures hseatFigures
  obtain ⟨hbankroll, hwagered, hlost, hwon⟩ := hfigures
  obtain ⟨hrisk, hstaked, hlost', hwon', hpending⟩ := hseatFigures
  obtain ⟨htables, hseats⟩ := lifetime_ledgers_agree firstWin 10
  obtain ⟨hsum, hwagers, hlosses, hwins⟩ := htables t ht
  obtain ⟨risk, hat, haccount⟩ := hseats .admin s hs
  have hten : risk = 10 := Except.ok.inj (hat.symm.trans hrisk)
  -- what was funded and collected is not evaluated: it follows from the two ledgers
  refine ⟨t, s, ht, hs, hbankroll, hwon, hlost, ?_, hwagers.symm.trans hwagered,
    hlosses.symm.trans hlost, hwins.symm.trans hwon, hrisk, hpending, ?_⟩
  · omega
  · omega

end House

end DiceHouse
