import DiceHouse.Proofs.House.Run

/-!
# Every bet rides every roll

A bet is placed while the current round is undrawn and both the table and the player's seat have
seen every roll before it. From then on, as long as something rides at the seat, it is settled
against the rounds from that one on, in order, without a gap and without a repeat, and each time
against the dice of the round in the phase that the earlier rolls made of a come-out. Settlements
may be asked for by anyone at any time, so this is a fact about runs; `SeatMove.riding` is its step.
-/

namespace DiceHouse

namespace Ledger

/-- Something rides at the seat of a player. -/
def Riding (l : Ledger) (owner : Address) : Prop :=
  ∃ s, l.load .seat (.seat owner) = .ok s ∧ s.hasRiding = true

/-- The seat of a player was judged against the roll of a round, in the phase that the rolls of all
earlier rounds made of a come-out. -/
def Judged (l m : Ledger) (owner : Address) (n : Nat) : Prop :=
  ∃ s config rolls roll settled,
    l.load .seat (.seat owner) = .ok s ∧ l.load .settings .settings = .ok config ∧
    l.Rolled rolls ∧ rolls.length + 1 = n ∧ l.Resolved n roll ∧
    s.settle (Phase.comeOut.along rolls) roll config.fieldTriple = .ok settled ∧
    m.load .seat (.seat owner) = .ok { settled.1 with epoch := n }

theorem Judged.epoch {l m : Ledger} {owner : Address} {n : Nat} {s : Seat Address}
    (h : l.Judged m owner n) (hload : m.load .seat (.seat owner) = .ok s) : s.epoch = n := by
  obtain ⟨_, _, _, _, settled, _, _, _, _, _, _, hafter⟩ := h
  cases hafter.symm.trans hload
  rfl

end Ledger

namespace House

open Ledger

variable {accounts : List Access} {l m : Ledger} {t : Table} {rolls : List Roll} {o : Address}
  {label : Option Nat} {s : Seat Address}

/-! ## One step -/

/-- After it caught up with a round, the table follows the rolls of rounds that were drawn. -/
theorem follows_of_catchUp {r : Round Address} {roll : Roll} {rolled : Table × Option Call}
    (hf : t.Follows rolls) (hrolled : l.Rolled rolls)
    (hr : l.load .round (.round r.id) = .ok r) (hroll : r.roll = .ok roll)
    (hcatch : t.catchUp r.id roll = .ok rolled) :
    ∃ rolls', rolled.1.Follows rolls' ∧ l.Rolled rolls' := by
  have hresolved : l.Resolved r.id roll := ⟨r, hr, hroll⟩
  rcases hf.catchUp hresolved.square hcatch with ⟨-, hsame⟩ | ⟨hnext, hf'⟩
  · rw [hsame]
    exact ⟨rolls, hf, hrolled⟩
  · exact ⟨rolls ++ [roll], hf', hrolled.concat (hnext ▸ hresolved)⟩

/-- A seat at which something rides is settled against the round after its last and no other, in the
phase before that round's roll. -/
theorem judged_of_settlement (hl : l.InStep) (g : Operation.Settlement accounts l m)
    (hr : g.seat.hasRiding = true) :
    g.round.id = g.seat.epoch + 1 ∧ l.Judged m g.seat.owner (g.seat.epoch + 1) := by
  obtain ⟨current, rolls, hu⟩ := hl.underway g.table_load
  obtain ⟨rolls', hf, hrolled⟩ :=
    follows_of_catchUp hu.follows hu.rolled g.round_load g.roll_eq g.catchUp
  have hplayed := Operation.playTurn_played g.play
  have hafter := g.seat_after
  generalize g.turn.1 = t', g.turn.2.1 = seat' at hplayed hafter
  cases hplayed with
  | sync hturn =>
    rw [hr] at hturn
    obtain ⟨-, -, -, hway⟩ := hf.turn_riding_eq_ok_iff.mp hturn
    cases hway
  | settle hturn hsettle _ =>
    rw [hr] at hturn
    obtain ⟨hnext, hle, -, hway⟩ := hf.turn_riding_eq_ok_iff.mp hturn
    cases hway
    have hlength : (rolls'.take g.seat.epoch).length = g.seat.epoch :=
      List.length_take_of_le (by omega)
    rw [hnext] at hafter
    exact ⟨hnext, g.seat, g.settings, rolls'.take g.seat.epoch, g.roll, _, g.seat_load,
      g.settings_load, hrolled.take _, by rw [hlength], ⟨g.round, hnext ▸ g.round_load, g.roll_eq⟩,
      hsettle, hafter⟩

/-- While something rides at a seat, a step leaves its round, clears it, or settles it against the
round after. -/
theorem SeatMove.riding (h : SeatMove accounts l m o label) (hl : l.InStep) (hs : l.SeatsSound)
    (hload : l.load .seat (.seat o) = .ok s) (hr : s.hasRiding = true) :
    label = none ∧ (∀ s', m.load .seat (.seat o) = .ok s' → s'.hasRiding = true →
        s'.epoch = s.epoch) ∨
      label = some (s.epoch + 1) ∧ l.Judged m o (s.epoch + 1) := by
  cases h with
  | same h =>
    refine .inl ⟨rfl, fun s' hs' _ => ?_⟩
    rw [h, hload] at hs'
    cases hs'
    rfl
  | collected hbefore hafter =>
    refine .inl ⟨rfl, fun s' hs' _ => ?_⟩
    cases hbefore.symm.trans hload
    cases hafter.symm.trans hs'
    rfl
  | wagered g ho =>
    subst ho
    refine .inl ⟨rfl, fun s' hs' _ => ?_⟩
    cases g.seat_after.symm.trans hs'
    -- a seat at which something rides is taken only when it is level with the table
    rw [(seat_of_bet hs g).2.1]
    rcases g.taken.waits hload with hlevel | hidle
    · exact hlevel.symm
    · rw [hr] at hidle
      cases hidle
  | settled g ho =>
    subst ho
    cases g.seat_load.symm.trans hload
    obtain ⟨hid, hjudged⟩ := judged_of_settlement hl g hr
    exact .inr ⟨congrArg some hid, hjudged⟩
  | forfeited g ho =>
    subst ho
    refine .inl ⟨rfl, fun s' hs' hr' => ?_⟩
    cases g.seat_after.symm.trans hs'
    exact absurd ((seat_of_forfeiture hs g).2.1.symm.trans hr') (by decide)

/-! ## Whole runs -/

section Runs

variable {allowed : Instruction → Prop} {run : Run allowed Ledger.Outside} {j k : Nat}

theorem Run.settledBetween_succ (hjk : j ≤ k) :
    run.settledBetween o j (k + 1) = run.settledBetween o j k ++ (run.settled? o k).toList := by
  have hlength : k + 1 - j = k - j + 1 := by omega
  have hlast : j + (k - j) = k := by omega
  unfold settledBetween
  rw [hlength, List.range'_1_concat, hlast, List.filterMap_append]
  congr 1

/-- From a moment at which a seat rides level with the round before `first`, the rounds against
which it is settled are `first` and those after it, as long as it rides. -/
theorem Run.settledBetween_riding {first : Nat}
    (hstart : ∀ s, (run.ledger j).load .seat (.seat o) = .ok s → s.hasRiding = true →
      s.epoch + 1 = first)
    (hjk : j ≤ k) (hriding : ∀ m, j ≤ m → m < k → (run.ledger m).Riding o) :
    ∃ c, run.settledBetween o j k = List.range' first c ∧
      ∀ s, (run.ledger k).load .seat (.seat o) = .ok s → s.hasRiding = true →
        s.epoch + 1 = first + c := by
  induction hjk with
  | refl =>
    refine ⟨0, ?_, hstart⟩
    unfold settledBetween
    rw [Nat.sub_self]
    rfl
  | @step k hjk ih =>
    obtain ⟨c, hlist, hlevel⟩ := ih fun m hjm hmk => hriding m hjm (Nat.lt_succ_of_lt hmk)
    obtain ⟨s, hload, hr⟩ := hriding k hjk (Nat.lt_succ_self k)
    have hepoch := hlevel s hload hr
    obtain ⟨accounts, hmove⟩ := run.seatMove o k
    rcases hmove.riding (run.inStep k) (run.seatsSound k) hload hr with
      ⟨hnone, hkept⟩ | ⟨hsome, hjudged⟩
    · -- the seat stays where it is, and nothing joins the list
      refine ⟨c, ?_, fun s' hload' hr' => ?_⟩
      · rw [settledBetween_succ hjk, hnone, hlist]
        exact List.append_nil _
      · rw [hkept s' hload' hr', hepoch]
    · -- the next round joins the list
      refine ⟨c + 1, ?_, fun s' hload' _ => ?_⟩
      · rw [settledBetween_succ hjk, hsome, hlist, hepoch, List.range'_1_concat]
        rfl
      · rw [hjudged.epoch hload', hepoch, Nat.add_assoc]

/-- When a bet is granted while the board points at a round, that round is undrawn and table and
seat have seen all rounds before it. From then on, as long as something rides at the seat, it is
settled against that round and the ones after it, in order and each once, and every time judged
against the roll of the round in the phase that all earlier rolls made. -/
theorem bets_ride_every_roll (run : Run allowed Ledger.Outside)
    {j slot amount kindCode number : Nat} {i : Instruction} {b : Board} {session : Session}
    (hcall : run.events[j]? = some (.call slot i))
    (hdecode : Request.decode i.data = some (.bet amount kindCode number))
    (hgranted : process slot i (run.ledger j) = .ok session)
    (hboard : (run.ledger j).load .board .board = .ok b) :
    ∃ o, i.accounts[3]?.map Access.address = some (.seat o) ∧
      (∀ m, m = j ∨ m = j + 1 →
        (∃ r, (run.ledger m).load .round (.round b.round) = .ok r ∧ r.winner = none) ∧
        ∃ t, (run.ledger m).load .table .table = .ok t ∧ t.epoch + 1 = b.round) ∧
      (∃ s, (run.ledger (j + 1)).load .seat (.seat o) = .ok s ∧ s.epoch + 1 = b.round ∧
        s.hasRiding = true) ∧
      ∀ k, j < k → (∀ m, j < m → m < k → (run.ledger m).Riding o) →
        (∃ c, run.settledBetween o (j + 1) k = List.range' b.round c ∧
          ∀ s, (run.ledger k).load .seat (.seat o) = .ok s → s.hasRiding = true →
            s.epoch + 1 = b.round + c) ∧
        ∀ m n, j < m → m < k → run.settled? o m = some n →
          (run.ledger m).Judged (run.ledger (m + 1)) o n := by
  have hnext : run.ledger (j + 1) = session.ledger := by
    rw [Run.ledger_succ hcall]
    show step (run.ledger j) (slot, i) = session.ledger
    unfold step
    rw [hgranted]
  obtain ⟨spot, ⟨g⟩⟩ := bet_of_process hdecode hgranted
  rw [← hnext] at g
  cases g.board_load.symm.trans hboard
  obtain ⟨hpositive, hlevel⟩ := g.upToDate
  obtain ⟨current, rolls, hu⟩ := (run.inStep j).underway g.table_load
  have hcurrent : current = g.board.round :=
    Option.some.inj (hu.cursor.symm.trans (cursor?_of_load g.board_load))
  obtain ⟨r, hr, -, hundrawn⟩ := load_of_draw? hu.waiting
  rw [hcurrent] at hr
  have hbooked : g.booked.epoch = g.table.epoch :=
    congrArg Line.epoch (Table.line_reserve g.reserve)
  obtain ⟨-, hepoch, hriding⟩ := seat_of_bet (run.seatsSound j) g
  have hseat : g.placed.1.epoch + 1 = g.board.round := by omega
  refine ⟨g.signer.address, ?_, fun m hm => ?_, ⟨g.placed.1, g.seat_after, hseat, hriding⟩,
    fun k hjk hrides => ⟨?_, fun m n hjm hmk hsettled => ?_⟩⟩
  · rw [← Access.address_unify]
    exact g.seat_listed
  · rcases hm with rfl | rfl
    · exact ⟨⟨r, hr, hundrawn⟩, g.table, g.table_load, by omega⟩
    · refine ⟨⟨r, ?_, hundrawn⟩, g.booked, g.table_after, by omega⟩
      rw [g.records _ _ (by simp) (by simp) (by simp)]
      exact hr
  · refine Run.settledBetween_riding (fun s hs _ => ?_) hjk fun m hjm hmk => hrides m hjm hmk
    cases g.seat_after.symm.trans hs
    exact hseat
  · obtain ⟨s, hload, hr⟩ := hrides m hjm hmk
    obtain ⟨accounts, hmove⟩ := run.seatMove g.signer.address m
    rw [hsettled] at hmove
    rcases hmove.riding (run.inStep m) (run.seatsSound m) hload hr with
      ⟨hnone, -⟩ | ⟨hsome, hjudged⟩
    · cases hnone
    · cases hsome
      exact hjudged

end Runs

/-- The first bet is placed while round 1 is undrawn, and is settled against round 1. -/
theorem bets_ride_every_roll_firstRoll :
    (∃ r, (firstRoll.ledger 4).load .round (.round 1) = .ok r ∧ r.winner = none) ∧
      firstRoll.settledBetween .admin 4 7 = [1] ∧
      (firstRoll.ledger 6).Judged (firstRoll.ledger 7) .admin 1 := by
  obtain ⟨hcursor, hgranted, -, hsettled⟩ := firstRoll_moments
  obtain ⟨b, hboard, hround⟩ := exists_of_toOption_map hcursor
  obtain ⟨session, hsession⟩ := Option.isSome_iff_exists.mp hgranted
  have hdecode : Request.decode (Client.bet .admin .passLine 0 10).data = some (.bet 10 0 0) :=
    rfl
  obtain ⟨o, hlisted, hlevel, -, hrides⟩ := bets_ride_every_roll firstRoll (j := 3) rfl hdecode
    (toOption_eq_some_iff.mp hsession) hboard
  cases hlisted
  rw [hround] at hlevel hrides
  have hriding : ∀ m, 3 < m → m < 7 → (firstRoll.ledger m).Riding .admin := by
    intro m hlo hhi
    obtain ⟨s, hs, -, hr⟩ := firstRoll_seat hlo hhi.le
    exact ⟨s, hs, hr⟩
  obtain ⟨⟨c, hlist, hnext⟩, hjudged⟩ := hrides 7 (by decide) hriding
  obtain ⟨s, hs, hepoch, hr⟩ := firstRoll_seat (k := 7) (by decide) (by decide)
  have hone : c = 1 := by
    have hsum := hnext s hs hr
    rw [hepoch, if_pos rfl] at hsum
    omega
  rw [hone] at hlist
  exact ⟨(hlevel 4 (.inr rfl)).1, hlist, hjudged 6 1 (by decide) (by decide) hsettled⟩

end House

end DiceHouse
