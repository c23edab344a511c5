import DiceHouse.Proofs.House.Calls
import DiceHouse.Proofs.House.Run
import DiceHouse.Proofs.Seat.Decided

/-!
# No seat gets stuck

A seat at which something rides and whose next round is resolved and still in the log can be
settled, at any time and by anybody. The reasons for which a settlement could be refused are ruled
out by three invariants of reachable ledgers together: rounds, table and seats are in step, the
table has reserved what the wagers can win, and chips cover the bankroll and what the players have
on the table. The last one bounds every sum, because a purse holds an amount. What has no bound are
the lifetime totals, and they are all that is left.
-/

namespace DiceHouse.House

variable {l : Ledger} {t : Table} {s : Seat Address} {o : Address} {n : Nat} {roll : Roll}
  {phase : Phase} {fieldTriple : Bool} {d : Seat Address × Tally}

/-- The chips bound what one seat has on the table, ties up and waits to collect. -/
theorem room_of_seat (h : l.ChipsCover) (ht : l.load .table .table = .ok t) (hs : s ∈ l.seats) :
    s.exposure ≤ t.reserved ∧ t.reserved ≤ t.bankroll ∧
      t.bankroll + s.stakes + s.pending < Amount.limit := by
  have hexact : t.reserved = l.tied := h.exact t ht
  have htied : s.exposure ≤ l.tied := tied_of_mem hs
  have hheld : s.stakes + s.pending ≤ l.held := held_of_mem hs
  have hcover : t.bankroll + l.held ≤ l.chips := h.cover t ht
  have hchips : l.chips < Amount.limit := h.purse.balance_lt
  exact ⟨hexact ▸ htied, h.solvent t ht, by omega⟩

/-- What a roll decides at a seat the table can pay and the seat can hold. -/
theorem affords_of_decided (h : l.ChipsCover) (ht : l.load .table .table = .ok t)
    (hs : s ∈ l.seats) (hd : s.Decided d) :
    t.Affords d.2 ∧ s.pending + d.2.credited < Amount.limit := by
  obtain ⟨hexposure, hsolvent, hroom⟩ := room_of_seat h ht hs
  have hreleased := hd.released
  have hcovered := hd.covered
  have hlost := hd.lost
  have hcredited := hd.credited
  exact ⟨⟨by omega, by omega, by omega⟩, by omega⟩

/-- When a seat was decided, its turn fails for nothing but a lifetime total. -/
theorem playTurn_of_decided (hturn : t.turn s.epoch s.hasRiding n = .ok (.settle phase))
    (hd : s.decided phase roll fieldTriple = .ok d) (hrewritten : s.Rewritten d.1)
    (hroom : s.pending + d.2.credited < Amount.limit) (hafford : t.Affords d.2) :
    (t.CountersFit d.2 ∧ s.CountersFit d.2 →
        ∃ turn, Operation.playTurn t s n roll fieldTriple = .ok turn) ∧
      (¬(t.CountersFit d.2 ∧ s.CountersFit d.2) →
        Operation.playTurn t s n roll fieldTriple = .error .overflow) := by
  unfold Operation.playTurn
  rw [hturn, ok_bind]
  dsimp only
  by_cases hseat : s.CountersFit d.2
  · obtain ⟨settled, hsettled⟩ := Seat.settle_of_fits hd hrewritten hroom hseat
    rw [hsettled, ok_bind]
    constructor
    · rintro ⟨htable, -⟩
      obtain ⟨booked, hbooked⟩ := Table.book_of_fits hafford htable
      rw [hbooked, ok_bind]
      exact ⟨_, rfl⟩
    · intro hfit
      have htable : ¬t.CountersFit d.2 := fun htable => hfit ⟨htable, hseat⟩
      rw [Table.book_of_not_fits hafford htable, error_bind]
  · rw [Seat.settle_of_not_fits hd hrewritten hroom hseat, error_bind]
    exact ⟨fun hfit => absurd hfit.2 hseat, fun _ => rfl⟩

/-- On every reachable ledger, take a seat at which something rides, whose next round is resolved
and no further behind the table than the log reaches. The roll of that round decides the seat, the
bankroll pays the profit, no more is released than is reserved, and all sums but the lifetime totals
are amounts. So a well-formed call to settle the seat is granted if the lifetime totals can take the
settlement, and otherwise refused because one of them cannot. -/
theorem settlement_never_stuck {r : Round Address} (h : Reachable Authentic Ledger.Outside l)
    (hs : l.load .seat (.seat o) = .ok s) (hriding : s.hasRiding = true)
    (ht : l.load .table .table = .ok t)
    (hr : l.load .round (.round (s.epoch + 1)) = .ok r) (hresolved : r.isResolved = true)
    (hwindow : t.epoch - s.epoch ≤ 64) :
    ∃ config roll rolls d, l.load .settings .settings = .ok config ∧ r.roll = .ok roll ∧
      l.Rolled rolls ∧ rolls.length = s.epoch ∧
      s.decided (Phase.comeOut.along rolls) roll config.fieldTriple = .ok d ∧
      d.2.profit ≤ t.bankroll + d.2.lost ∧ t.bankroll + d.2.lost < Amount.limit ∧
      d.2.released ≤ t.reserved ∧ s.pending + d.2.credited < Amount.limit ∧
      ∀ slot i, SettleCall i o (s.epoch + 1) →
        (t.CountersFit d.2 ∧ s.CountersFit d.2 → ∃ session, process slot i l = .ok session) ∧
        (¬(t.CountersFit d.2 ∧ s.CountersFit d.2) →
          process slot i l = .error (.fault .overflow)) := by
  obtain ⟨current, rolls, hu⟩ := (h.inStep fun _ _ ho => ho).underway ht
  obtain ⟨config, hconfig⟩ := hu.configured
  obtain ⟨howner, hbehind⟩ := hu.seats o s hs
  subst howner
  -- the round has a roll, and the table takes it if it does not have it
  obtain ⟨hlt, hid, square, hroll⟩ := hu.roll_of_isResolved hr hresolved
  rw [hu.follows.epoch] at hwindow hbehind
  obtain ⟨rolled, hcatch, hturn⟩ :=
    hu.follows.turn_of_catchUp ⟨square, rfl⟩ hbehind hwindow (hlt.trans hu.fits)
  rw [← hriding] at hturn
  obtain ⟨hbankroll, hreserved, hcollected, hpayouts⟩ := Table.catchUp_ok hcatch
  -- what is on the table is an amount, so the roll decides the seat
  have hmem : s ∈ l.seats := Ledger.mem_seats.mpr ⟨_, hs⟩
  have hsound : s.Sound := h.chipsCover.sound s hmem
  obtain ⟨hexposure, hsolvent, hroom⟩ := room_of_seat h.chipsCover ht hmem
  have hamount : s.stakes + s.exposure < Amount.limit := by omega
  obtain ⟨d, hd, hdecided⟩ := Seat.decided_ok hsound (hu.follows.valid_take s.epoch) ⟨square, rfl⟩
    hamount config.fieldTriple
  obtain ⟨⟨hgrown, hprofit, hreleased⟩, hpending⟩ :=
    affords_of_decided h.chipsCover ht hmem hdecided
  have hafford : rolled.1.Affords d.2 :=
    ⟨hbankroll ▸ hgrown, hbankroll ▸ hprofit, hreserved ▸ hreleased⟩
  have hcounters : rolled.1.CountersFit d.2 ↔ t.CountersFit d.2 := by
    unfold Table.CountersFit
    rw [hcollected, hpayouts]
  refine ⟨config, _, rolls.take s.epoch, d, hconfig, hroll, hu.rolled.take _,
    List.length_take_of_le hbehind, hd, hprofit, hgrown, hreleased, hpending, fun slot i hi => ?_⟩
  obtain ⟨hok, herror⟩ := playTurn_of_decided hturn hd hdecided.rewritten hpending hafford
  rw [hcounters] at hok herror
  constructor
  · intro hfit
    obtain ⟨turn, hplay⟩ := hok hfit
    exact (settle_call hi hconfig ht hs hr hid hroll hcatch).1 turn hplay
  · intro hfit
    exact (settle_call hi hconfig ht hs hr hid hroll hcatch).2 .overflow (herror hfit)

/-- What five and three on a come-out make of the admin's three bets: 62 are paid on the 8, and the
field loses 20. -/
def firstTally : Tally :=
  { credited := 72, profit := 62, lost := 20, released := 122, resolved := 2 }

/-- When round 1 is drawn and the seat waits for it, nothing has been won or lost before. -/
theorem firstWin_drawn :
    ((firstWin.ledger 8).load .seat (.seat .admin)).toOption.map
        (fun s => (s.epoch, s.hasRiding, s.totalWon, s.totalLost, s.totalPushed))
          = some (0, true, 0, 0, 0) ∧
      ((firstWin.ledger 8).load .table .table).toOption.map
        (fun t => (t.epoch, t.totalCollected, t.totalPayouts)) = some (0, 0, 0) ∧
      (firstWin.ledger 8).draw? 1 = some (1, some 26) ∧
      ∀ fieldTriple : Bool, ((firstWin.ledger 8).load .seat (.seat .admin)).toOption.map
        (fun s => (s.decided .comeOut (Roll.ofSquare 26) fieldTriple).toOption.map Prod.snd)
          = some (some firstTally) := by
  decide +kernel

/-- The seat that waits for the first roll can be settled, and the bankroll then pays 62 and takes
in 20. -/
theorem settlement_never_stuck_firstWin :
    Reachable Authentic Ledger.Outside (firstWin.ledger 8) ∧
      ∃ s t r d, (firstWin.ledger 8).load .seat (.seat .admin) = .ok s ∧ s.epoch = 0 ∧
        s.hasRiding = true ∧ (firstWin.ledger 8).load .table .table = .ok t ∧ t.epoch = 0 ∧
        (firstWin.ledger 8).load .round (.round 1) = .ok r ∧ r.isResolved = true ∧
        (∃ fieldTriple, s.decided .comeOut (Roll.ofSquare 26) fieldTriple = .ok d) ∧
        d.2.profit = 62 ∧ d.2.lost = 20 ∧ d.2.profit ≤ t.bankroll + d.2.lost ∧
        d.2.released ≤ t.reserved ∧
        SettleCall (Client.settle .admin .admin 1) .admin 1 ∧
        ∃ session,
          process 151 (Client.settle .admin .admin 1) (firstWin.ledger 8) = .ok session := by
  obtain ⟨hseat, htable, hdraw, htally⟩ := firstWin_drawn
  obtain ⟨s, hs, hfields⟩ := exists_of_toOption_map hseat
  obtain ⟨t, ht, htotals⟩ := exists_of_toOption_map htable
  obtain ⟨r, hr, -, hwinner⟩ := Ledger.load_of_draw? hdraw
  simp only [Prod.mk.injEq] at hfields htotals
  obtain ⟨hzero, hriding, hwon, hlost, hpushed⟩ := hfields
  obtain ⟨hlevel, hcollected, hpayouts⟩ := htotals
  have hresolved : r.isResolved = true := by
    unfold Round.isResolved
    rw [hwinner]
    rfl
  have hwindow : t.epoch - s.epoch ≤ 64 := by omega
  have hcall := settleCall_client .admin .admin 1
  obtain ⟨config, roll, rolls, d, -, hroll, -, hlength, hd, hprofit, -, hreleased, -, hsettle⟩ :=
    settlement_never_stuck (firstWin.reachable 8) hs hriding ht (hzero ▸ hr) hresolved hwindow
  -- the roll is the square that was drawn, on a come-out
  obtain rfl : rolls = [] := List.eq_nil_of_length_eq_zero (hlength.trans hzero)
  obtain rfl : roll = Roll.ofSquare 26 := by
    unfold Round.roll Round.winningSquare at hroll
    rw [hwinner] at hroll
    cases hroll
    rfl
  have htally : d.2 = firstTally := by
    obtain ⟨s', hs', hcomputed⟩ := exists_of_toOption_map (htally config.fieldTriple)
    cases hs'.symm.trans hs
    obtain ⟨d', hd', hpaid⟩ := exists_of_toOption_map hcomputed
    cases hd'.symm.trans hd
    exact hpaid
  refine ⟨firstWin.reachable 8, s, t, r, d, hs, hzero, hriding, ht, hlevel, hr, hresolved,
    ⟨config.fieldTriple, hd⟩, congrArg Tally.profit htally, congrArg Tally.lost htally, hprofit,
    hreleased, hcall, ?_⟩
  rw [hzero, htally] at hsettle
  refine (hsettle 151 (Client.settle .admin .admin 1) hcall).1 ⟨?_, ?_⟩
  · unfold Table.CountersFit
    rw [hcollected, hpayouts]
    decide
  · unfold Seat.CountersFit
    rw [hwon, hlost, hpushed]
    decide

end DiceHouse.House
