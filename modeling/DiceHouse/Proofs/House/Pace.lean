import DiceHouse.Proofs.House.Solvency
import DiceHouse.Proofs.Round.Resolve
import DiceHouse.Proofs.Seat.Riding

/-!
# The pace of the house

Rounds are opened and drawn one after another, and the table takes their rolls when somebody asks
for it. `Pace` says what one granted instruction is to that: it opens the house, it draws the
current round and opens the next, or it leaves the rounds as they are and at most makes the table
take one roll of a round that was drawn. `SeatMove` says what it is to the seat of one player.

A step needs to be told by little of the records: which round the board points at, the number and
the winner of each round, and the line of the table.
-/

namespace DiceHouse

/-! ## What is looked at -/

theorem toOption_eq_some_iff {ε α : Type} {x : Except ε α} {a : α} :
    x.toOption = some a ↔ x = .ok a := by
  cases x <;> simp [Except.toOption]

theorem toOption_eq_none_iff {ε α : Type} {x : Except ε α} :
    x.toOption = none ↔ ∀ a, x ≠ .ok a := by
  cases x <;> simp [Except.toOption]

namespace Ledger

/-- The round that the board points at. -/
def cursor? (l : Ledger) : Option Nat := (l.load .board .board).toOption.map Board.round

/-- The number and the winner of the round that is kept at a number. -/
def draw? (l : Ledger) (n : Nat) : Option (Nat × Option Nat) :=
  (l.load .round (.round n)).toOption.map fun r => (r.id, r.winner)

/-- The line of the table. -/
def line? (l : Ledger) : Option Line := (l.load .table .table).toOption.map Table.line

/-- There are settings. -/
def Configured (l : Ledger) : Prop := ∃ config, l.load .settings .settings = .ok config

/-- The round with a number was resolved with this roll. -/
def Resolved (l : Ledger) (n : Nat) (roll : Roll) : Prop :=
  ∃ r, l.load .round (.round n) = .ok r ∧ r.roll = .ok roll

/-- The rolls are those of rounds 1, 2, 3, … in order. -/
def Rolled (l : Ledger) (rolls : List Roll) : Prop :=
  ∀ n roll, rolls[n]? = some roll → l.Resolved (n + 1) roll

/-- The table takes the roll with which a round was resolved. -/
structure Takes (l m : Ledger) (n : Nat) (roll : Roll) : Prop where
  resolved : l.Resolved n roll
  applied : ∃ t rolled call, l.load .table .table = .ok t ∧
    t.applyRoll n roll = .ok (rolled, call) ∧ m.line? = some rolled.line

variable {l m : Ledger} {n : Nat} {roll : Roll}

theorem cursor?_of_load {b : Board} (h : l.load .board .board = .ok b) :
    l.cursor? = some b.round := by
  unfold cursor?
  rw [toOption_eq_some_iff.mpr h]
  rfl

theorem draw?_of_load {r : Round Address} (h : l.load .round (.round n) = .ok r) :
    l.draw? n = some (r.id, r.winner) := by
  unfold draw?
  rw [toOption_eq_some_iff.mpr h]
  rfl

theorem line?_of_load {t : Table} (h : l.load .table .table = .ok t) : l.line? = some t.line := by
  unfold line?
  rw [toOption_eq_some_iff.mpr h]
  rfl

theorem cursor?_of_absent (h : ∀ b, l.load .board .board ≠ .ok b) : l.cursor? = none := by
  unfold cursor?
  rw [toOption_eq_none_iff.mpr h]
  rfl

theorem draw?_of_absent (h : ∀ r, l.load .round (.round n) ≠ .ok r) : l.draw? n = none := by
  unfold draw?
  rw [toOption_eq_none_iff.mpr h]
  rfl

theorem line?_of_absent (h : ∀ t, l.load .table .table ≠ .ok t) : l.line? = none := by
  unfold line?
  rw [toOption_eq_none_iff.mpr h]
  rfl

theorem load_of_draw? {id : Nat} {winner : Option Nat} (h : l.draw? n = some (id, winner)) :
    ∃ r, l.load .round (.round n) = .ok r ∧ r.id = id ∧ r.winner = winner := by
  obtain ⟨r, hr, hpair⟩ := Option.map_eq_some_iff.mp h
  cases hpair
  exact ⟨r, toOption_eq_some_iff.mp hr, rfl, rfl⟩

theorem cursor?_congr (h : m.load .board .board = l.load .board .board) :
    m.cursor? = l.cursor? := by
  unfold cursor?
  rw [h]

theorem draw?_congr (h : m.load .round (.round n) = l.load .round (.round n)) :
    m.draw? n = l.draw? n := by
  unfold draw?
  rw [h]

theorem line?_congr (h : m.load .table .table = l.load .table .table) : m.line? = l.line? := by
  unfold line?
  rw [h]

theorem Configured.congr (h : m.load .settings .settings = l.load .settings .settings)
    (hl : l.Configured) : m.Configured := by
  obtain ⟨config, hc⟩ := hl
  exact ⟨config, h.trans hc⟩

/-! Resolved rounds -/

theorem resolved_iff : l.Resolved n roll ↔
    ∃ id square : Nat, l.draw? n = some (id, some square) ∧
      Roll.ofSquareNumber square = .ok roll := by
  constructor
  · rintro ⟨r, hr, hroll⟩
    unfold Round.roll Round.winningSquare at hroll
    cases hw : r.winner with
    | none =>
      rw [hw] at hroll
      cases hroll
    | some square =>
      rw [hw] at hroll
      exact ⟨r.id, square, by rw [draw?_of_load hr, hw], hroll⟩
  · rintro ⟨id, square, hdraw, hroll⟩
    obtain ⟨r, hr, -, hw⟩ := load_of_draw? hdraw
    refine ⟨r, hr, ?_⟩
    unfold Round.roll Round.winningSquare
    rw [hw]
    exact hroll

theorem Resolved.congr (h : m.draw? n = l.draw? n) (hl : l.Resolved n roll) :
    m.Resolved n roll := by
  rw [resolved_iff] at hl ⊢
  rw [h]
  exact hl

/-- Every roll is one of two dice. -/
theorem Resolved.square (h : l.Resolved n roll) : ∃ square, roll = Roll.ofSquare square := by
  obtain ⟨-, number, -, hroll⟩ := resolved_iff.mp h
  obtain ⟨square, -, rfl⟩ := map_eq_ok_iff.mp hroll
  exact ⟨square, rfl⟩

theorem Resolved.unique {roll' : Roll} (h : l.Resolved n roll) (h' : l.Resolved n roll') :
    roll = roll' := by
  obtain ⟨r, hr, hroll⟩ := h
  obtain ⟨r', hr', hroll'⟩ := h'
  cases hr.symm.trans hr'
  exact Except.ok.inj (hroll.symm.trans hroll')

theorem Rolled.take {rolls : List Roll} (h : l.Rolled rolls) (k : Nat) :
    l.Rolled (rolls.take k) := by
  intro n roll hn
  rw [List.getElem?_take] at hn
  split at hn
  · exact h n roll hn
  · cases hn

theorem Rolled.concat {rolls : List Roll} (h : l.Rolled rolls)
    (hroll : l.Resolved (rolls.length + 1) roll) : l.Rolled (rolls ++ [roll]) := by
  intro k other hk
  rcases Nat.lt_trichotomy k rolls.length with hlt | rfl | hgt
  · rw [List.getElem?_append_left hlt] at hk
    exact h k other hk
  · rw [List.getElem?_concat_length] at hk
    cases hk
    exact hroll
  · rw [List.getElem?_eq_none (by rw [List.length_append]; exact hgt)] at hk
    cases hk

/-- So many rounds have only these rolls. -/
theorem Rolled.unique {rolls rolls' : List Roll} (h : l.Rolled rolls) (h' : l.Rolled rolls')
    (hlength : rolls.length = rolls'.length) : rolls = rolls' := by
  refine List.ext_getElem hlength fun n hn hn' => ?_
  exact (h n _ (List.getElem?_eq_getElem hn)).unique (h' n _ (List.getElem?_eq_getElem hn'))

/-- Rounds that landed on squares were resolved with the rolls of those. -/
theorem rolled_of_squares {squares : List Square}
    (h : (List.range squares.length).map (fun n => (l.draw? (n + 1)).bind Prod.snd)
      = squares.map (some ·.val)) : l.Rolled (squares.map Roll.ofSquare) := by
  intro n roll hroll
  rw [List.getElem?_map] at hroll
  obtain ⟨square, hsquare, rfl⟩ := Option.map_eq_some_iff.mp hroll
  have hn : n < squares.length := (List.getElem?_eq_some_iff.mp hsquare).1
  have hwinner : (l.draw? (n + 1)).bind Prod.snd = some square.val := by
    have hat := congrArg (fun winners => winners[n]?) h
    simpa only [List.getElem?_map, List.getElem?_range hn, hsquare, Option.map_some,
      Option.some.injEq] using hat
  obtain ⟨⟨id, winner⟩, hdraw, rfl⟩ := Option.bind_eq_some_iff.mp hwinner
  refine resolved_iff.mpr ⟨id, square.val, hdraw, ?_⟩
  unfold Roll.ofSquareNumber
  rw [Square.ofNumber_val]
  rfl

end Ledger

namespace House

variable {accounts : List Access} {l m : Ledger}

/-! ## Rounds and the line -/

/-- What a granted instruction is to the rounds and to the line. -/
inductive Pace (l m : Ledger) : Prop where
  | opening (hcursor : l.cursor? = none) (hdraw : l.draw? 1 = none) (hline : l.line? = none)
    (hcursor' : m.cursor? = some 1) (hdraw' : m.draw? 1 = some (1, none))
    (hothers : ∀ n, n ≠ 1 → m.draw? n = l.draw? n)
    (htable' : m.load .table .table = .ok (Table.blank.setPhase .comeOut))
    (hsettings' : m.Configured)
  | drawing {n : Nat} {square : Square} (hcursor : l.cursor? = some n)
    (hfits : n + 1 < Amount.limit) (hdraw : l.draw? n = some (n, none))
    (hcursor' : m.cursor? = some (n + 1)) (hdraw' : m.draw? n = some (n, some square.val))
    (hnext' : m.draw? (n + 1) = some (n + 1, none))
    (hothers : ∀ k, k ≠ n → k ≠ n + 1 → m.draw? k = l.draw? k) (hline : m.line? = l.line?)
    (hsettings : l.Configured → m.Configured)
  | playing (hcursor : m.cursor? = l.cursor?) (hdraw : ∀ n, m.draw? n = l.draw? n)
    (hline : m.line? = l.line? ∨ ∃ n roll, l.Takes m n roll)
    (hsettings : l.Configured → m.Configured)

/-- What leaves board, rounds and settings alone, and the line of the table, keeps the pace. -/
theorem Pace.idle (hboard : m.load .board .board = l.load .board .board)
    (hround : ∀ n, m.load .round (.round n) = l.load .round (.round n))
    (hsettings : m.load .settings .settings = l.load .settings .settings)
    (hline : m.line? = l.line? ∨ ∃ n roll, l.Takes m n roll) : Pace l m :=
  .playing (Ledger.cursor?_congr hboard) (fun n => Ledger.draw?_congr (hround n)) hline
    (.congr hsettings)

/-- A table that caught up with a round keeps its line, or takes the round's roll. -/
theorem line_of_catchUp {t : Table} {r : Round Address} {roll : Roll} {rolled : Table × Option Call}
    (ht : l.load .table .table = .ok t) (hr : l.load .round (.round r.id) = .ok r)
    (hroll : r.roll = .ok roll) (hcatch : t.catchUp r.id roll = .ok rolled)
    (hline : m.line? = some rolled.1.line) :
    m.line? = l.line? ∨ ∃ n roll, l.Takes m n roll := by
  rcases Table.catchUp_eq_ok_iff.mp hcatch with ⟨-, rfl⟩ | ⟨t', call, htake, rfl⟩
  · left
    rw [hline, Ledger.line?_of_load ht]
  · right
    exact ⟨r.id, roll, ⟨r, hr, hroll⟩, t, t', call, ht, htake, hline⟩

theorem pace_opening {slot : Nat} (g : Operation.Opening slot accounts l m) : Pace l m := by
  have hfirst : g.board.round = 1 := by
    have h := g.first
    unfold Operation.firstBoard at h
    simp only [bind_eq_ok_iff, pure_eq_ok_iff] at h
    obtain ⟨finish, -, hb⟩ := h
    rw [← hb]
  have hothers : ∀ n, n ≠ 1 → m.draw? n = l.draw? n := by
    intro n hn
    exact Ledger.draw?_congr ((g.rest _ (by simp) (by simp) (by simp) (by simpa using hn)
      (by simp)).load _)
  refine .opening (Ledger.cursor?_of_absent g.board_absent) (Ledger.draw?_of_absent g.round_absent)
    (Ledger.line?_of_absent g.table_absent) ?_ (Ledger.draw?_of_load g.round_after) hothers
    g.table_after ⟨_, g.settings_after⟩
  rw [Ledger.cursor?_of_load g.board_after, hfirst]

theorem pace_resolution {slot : Nat} (g : Operation.Resolution slot accounts l m) : Pace l m := by
  obtain ⟨square, hdrawn⟩ := Round.resolve_ok g.resolve
  obtain ⟨hround, -⟩ := Board.advance_ok g.advance
  have hfits : g.board.round + 1 < Amount.limit := by
    have h := g.advance
    unfold Board.advance at h
    simp only [bind_eq_ok_iff, Amount.add_eq_ok_iff] at h
    obtain ⟨-, ⟨hlt, -⟩, -⟩ := h
    exact hlt
  have hothers : ∀ k, k ≠ g.board.round → k ≠ g.board.round + 1 → m.draw? k = l.draw? k := by
    intro k hk hk'
    exact Ledger.draw?_congr (g.records _ _ (by simp) (by simpa using hk) (by simpa using hk')
      (by simp) (by simp))
  have hdrawn' : m.draw? g.board.round = some (g.board.round, some square.val) := by
    rw [Ledger.draw?_of_load g.round_after, hdrawn.id, g.numbered, hdrawn.winner]
  refine .drawing (Ledger.cursor?_of_load g.board_load) hfits ?_ ?_ hdrawn'
    (Ledger.draw?_of_load g.next_after) hothers ?_ ?_
  · rw [Ledger.draw?_of_load g.round_load, g.numbered, hdrawn.open_before]
  · rw [Ledger.cursor?_of_load g.board_after]
    exact congrArg some hround
  · exact Ledger.line?_congr (g.records _ _ (by simp) (by simp) (by simp) (by simp) (by simp))
  · exact .congr (g.records _ _ (by simp) (by simp) (by simp) (by simp) (by simp))

/-- A round in whose place one with the same number and winner was written is drawn alike. -/
theorem draw?_of_written {k : Nat} {r r' : Round Address}
    (hr : l.load .round (.round k) = .ok r) (hr' : m.load .round (.round k) = .ok r')
    (hid : r'.id = r.id) (hwinner : r'.winner = r.winner)
    (hothers : ∀ n, n ≠ k → m.load .round (.round n) = l.load .round (.round n)) (n : Nat) :
    m.draw? n = l.draw? n := by
  by_cases hn : n = k
  · subst hn
    rw [Ledger.draw?_of_load hr, Ledger.draw?_of_load hr', hid, hwinner]
  · exact Ledger.draw?_congr (hothers n hn)

theorem pace_stake {slot amount square prediction : Nat}
    (g : Operation.Stake slot amount square prediction accounts l m) : Pace l m := by
  obtain ⟨s, p, -, -, -, -, -, -, -, hstaked, -⟩ := Round.stake_ok g.stake
  have hround : ∀ n, m.draw? n = l.draw? n := by
    refine draw?_of_written g.round_load g.round_after ?_ ?_ fun n hn =>
      g.records _ _ (by simpa using hn) (by simp) (by simp)
    · rw [hstaked]
    · rw [hstaked]
  exact .playing (Ledger.cursor?_congr (g.records _ _ (by simp) (by simp) (by simp))) hround
    (.inl (Ledger.line?_congr (g.records _ _ (by simp) (by simp) (by simp))))
    (.congr (g.records _ _ (by simp) (by simp) (by simp)))

theorem pace_claim {slot : Nat} (g : Operation.Claim slot accounts l m) : Pace l m := by
  have hround : ∀ n, m.draw? n = l.draw? n :=
    draw?_of_written g.round_load g.round_after rfl rfl fun n hn =>
      g.records _ _ (by simpa using hn) (by simp) (by simp)
  exact .playing (Ledger.cursor?_congr (g.records _ _ (by simp) (by simp) (by simp))) hround
    (.inl (Ledger.line?_congr (g.records _ _ (by simp) (by simp) (by simp))))
    (.congr (g.records _ _ (by simp) (by simp) (by simp)))

theorem pace_rearming {slot : Nat} (g : Operation.Rearming slot accounts l m) : Pace l m := by
  obtain ⟨hround, -⟩ := Board.rearm_ok g.rearm
  refine .playing ?_ (fun n => Ledger.draw?_congr ((g.rest _ (by simp)).load _))
    (.inl (Ledger.line?_congr ((g.rest _ (by simp)).load _))) (.congr ((g.rest _ (by simp)).load _))
  rw [Ledger.cursor?_of_load g.board_load, Ledger.cursor?_of_load g.board_after, hround]

theorem pace_bet {slot amount : Nat} {spot : Spot}
    (g : Operation.Bet slot spot amount accounts l m) : Pace l m := by
  refine .idle (g.records _ _ (by simp) (by simp) (by simp))
    (fun n => g.records _ _ (by simp) (by simp) (by simp))
    (g.records _ _ (by simp) (by simp) (by simp)) (.inl ?_)
  rw [Ledger.line?_of_load g.table_load, Ledger.line?_of_load g.table_after,
    Table.line_reserve g.reserve]

theorem pace_settlement (g : Operation.Settlement accounts l m) : Pace l m := by
  refine .idle ((g.rest _ (by simp) (by simp)).load _)
    (fun n => (g.rest _ (by simp) (by simp)).load _) ((g.rest _ (by simp) (by simp)).load _)
    (line_of_catchUp g.table_load g.round_load g.roll_eq g.catchUp ?_)
  rw [Ledger.line?_of_load g.table_after, (Operation.playTurn_played g.play).line]

theorem pace_advance (g : Operation.Advance accounts l m) : Pace l m :=
  .idle ((g.rest _ (by simp)).load _) (fun n => (g.rest _ (by simp)).load _)
    ((g.rest _ (by simp)).load _)
    (line_of_catchUp g.table_load g.round_load g.roll_eq g.catchUp
      (Ledger.line?_of_load g.table_after))

theorem pace_forfeiture (g : Operation.Forfeiture accounts l m) : Pace l m := by
  refine .idle ((g.rest _ (by simp) (by simp)).load _)
    (fun n => (g.rest _ (by simp) (by simp)).load _) ((g.rest _ (by simp) (by simp)).load _)
    (.inl ?_)
  rw [Ledger.line?_of_load g.table_load, Ledger.line?_of_load g.table_after,
    Table.line_book g.book]

theorem pace_funding {amount : Nat} (g : Operation.Funding amount accounts l m) : Pace l m := by
  refine .idle (g.records _ _ (by simp) (by simp)) (fun n => g.records _ _ (by simp) (by simp))
    (g.records _ _ (by simp) (by simp)) (.inl ?_)
  rw [Ledger.line?_of_load g.table_load, Ledger.line?_of_load g.table_after,
    Table.line_fund g.fund]

theorem Granted.pace (g : Granted accounts l m) : Pace l m := by
  cases g with
  | opening g => exact pace_opening g
  | configuration g =>
    exact .playing (Ledger.cursor?_congr ((g.rest _ (by simp)).load _))
      (fun n => Ledger.draw?_congr ((g.rest _ (by simp)).load _))
      (.inl (Ledger.line?_congr ((g.rest _ (by simp)).load _))) fun _ => ⟨_, g.settings_after⟩
  | stake g => exact pace_stake g
  | rearming g => exact pace_rearming g
  | resolution g => exact pace_resolution g
  | claim g => exact pace_claim g
  | bet g => exact pace_bet g
  | settlement g => exact pace_settlement g
  | advance g => exact pace_advance g
  | collection g =>
    exact .idle (g.records _ _ (by simp)) (fun n => g.records _ _ (by simp))
      (g.records _ _ (by simp)) (.inl (Ledger.line?_congr (g.records _ _ (by simp))))
  | funding g => exact pace_funding g
  | forfeiture g => exact pace_forfeiture g

/-- What others do leaves the pace to the house. -/
theorem pace_outside (ho : l.Outside m) : Pace l m :=
  .idle ((ho.own _ (by simp [Address.seeds?])).load _)
    (fun n => (ho.own _ (by simp [Address.seeds?])).load _)
    ((ho.own _ (by simp [Address.seeds?])).load _) (.inl (Ledger.line?_congr (table_outside ho)))

end House

/-! ## One seat -/

/-- The round against which accounts ask to settle the seat of a player. -/
def Access.settles? (accounts : List Access) (owner : Address) : Option Nat :=
  match accounts[3]?.map Access.address, accounts[4]?.map Access.address with
  | some (.seat o), some (.round n) => if o = owner then some n else none
  | _, _ => none

/-- Rights do not change which accounts are listed. -/
theorem Access.address_unify (accounts : List Access) (n : Nat) :
    (Access.unify accounts)[n]?.map Access.address = accounts[n]?.map Access.address := by
  unfold Access.unify
  rw [List.getElem?_map, Option.map_map]
  congr 1
  funext a
  exact Access.address_first accounts a

theorem Access.settles?_unify (accounts : List Access) (owner : Address) :
    Access.settles? (Access.unify accounts) owner = Access.settles? accounts owner := by
  unfold Access.settles?
  rw [Access.address_unify, Access.address_unify]

namespace House

variable {accounts : List Access} {l m : Ledger} {o : Address} {slot : Nat}

/-- What a granted instruction is to the seat of a player, with the round that it settled the seat
against. -/
inductive SeatMove (accounts : List Access) (l m : Ledger) (o : Address) : Option Nat → Prop where
  | same (h : m.load .seat (.seat o) = l.load .seat (.seat o)) : SeatMove accounts l m o none
  | collected {s : Seat Address} (hl : l.load .seat (.seat o) = .ok s)
    (hm : m.load .seat (.seat o) = .ok { s with pending := 0 }) : SeatMove accounts l m o none
  | wagered {slot amount : Nat} {spot : Spot} (g : Operation.Bet slot spot amount accounts l m)
    (ho : g.signer.address = o) : SeatMove accounts l m o none
  | settled (g : Operation.Settlement accounts l m) (ho : g.seat.owner = o) :
    SeatMove accounts l m o (some g.round.id)
  | forfeited (g : Operation.Forfeiture accounts l m) (ho : g.seat.owner = o) :
    SeatMove accounts l m o none

/-- The round against which a request settles the seat of a player, if it is granted. -/
def settlesBy? (request : Request) (accounts : List Access) (owner : Address) : Option Nat :=
  if request = .settle then Access.settles? accounts owner else none

theorem settlesBy?_unify (request : Request) (accounts : List Access) (owner : Address) :
    settlesBy? request (Access.unify accounts) owner = settlesBy? request accounts owner := by
  unfold settlesBy?
  rw [Access.settles?_unify]

theorem seatMove_settlement (g : Operation.Settlement accounts l m) (o : Address) :
    SeatMove accounts l m o (Access.settles? accounts o) := by
  have hlabel : Access.settles? accounts o
      = if g.seat.owner = o then some g.round.id else none := by
    unfold Access.settles?
    rw [g.seat_listed, g.round_listed]
  rw [hlabel]
  split
  · next ho => exact .settled g ho
  · next ho =>
    have hne : Address.seat o ≠ .seat g.seat.owner := by
      intro hc
      cases hc
      exact ho rfl
    exact .same ((g.rest _ (by simp) hne).load _)

theorem serve_seatMove {request : Request} {s : Session}
    (h : serve slot request accounts l = .ok s) (o : Address) :
    SeatMove accounts l s.ledger o (settlesBy? request accounts o) := by
  cases request with
  | openHouse =>
    obtain ⟨g⟩ := Operation.openHouse_ok h
    exact .same ((g.rest _ (by simp) (by simp) (by simp) (by simp) (by simp)).load _)
  | configure settings =>
    obtain ⟨g⟩ := Operation.configure_ok h
    exact .same ((g.rest _ (by simp)).load _)
  | stake amount square prediction =>
    obtain ⟨g⟩ := Operation.stake_ok h
    exact .same (g.records _ _ (by simp) (by simp) (by simp))
  | resolve =>
    rcases Operation.resolve_ok h with ⟨⟨g⟩⟩ | ⟨⟨g⟩⟩
    · exact .same ((g.rest _ (by simp)).load _)
    · exact .same (g.records _ _ (by simp) (by simp) (by simp) (by simp) (by simp))
  | claim =>
    obtain ⟨g, -⟩ := Operation.claim_ok h
    exact .same (g.records _ _ (by simp) (by simp) (by simp))
  | bet amount kindCode number =>
    simp only [serve, bind_eq_ok_iff, liftM_eq_ok_iff] at h
    obtain ⟨spot, -, h⟩ := h
    obtain ⟨g⟩ := Operation.bet_ok h
    by_cases ho : g.signer.address = o
    · exact .wagered g ho
    · exact .same (g.records _ _ (by simp) (by simpa using Ne.symm ho) (by simp))
  | settle =>
    obtain ⟨g⟩ := Operation.settle_ok h
    exact seatMove_settlement g o
  | advance =>
    obtain ⟨g⟩ := Operation.advance_ok h
    exact .same ((g.rest _ (by simp)).load _)
  | collect =>
    obtain ⟨g, -⟩ := Operation.collect_ok h
    by_cases ho : g.signer.address = o
    · subst ho
      exact .collected g.seat_load g.seat_after
    · exact .same (g.records _ _ (by simpa using Ne.symm ho))
  | fund amount =>
    obtain ⟨g⟩ := Operation.fund_ok h
    exact .same (g.records _ _ (by simp) (by simp))
  | forfeit =>
    obtain ⟨g⟩ := Operation.forfeit_ok h
    by_cases ho : g.seat.owner = o
    · exact .forfeited g ho
    · exact .same ((g.rest _ (by simp) (by simpa using Ne.symm ho)).load _)

/-- A granted bet leaves a seat that rides and waits for the roll after the table's last. -/
theorem seat_of_bet {amount : Nat} {spot : Spot} (hs : l.SeatsSound)
    (g : Operation.Bet slot spot amount accounts l m) :
    g.placed.1.owner = g.signer.address ∧ g.placed.1.epoch = g.table.epoch ∧
      g.placed.1.hasRiding = true := by
  have hsound := sound_of_taken hs g.taken
  obtain ⟨howner, hlevel⟩ := g.taken.level
  obtain ⟨hepoch, hriding⟩ := Seat.place_rides hsound g.place
  exact ⟨(Seat.place_ok hsound g.place).owner.trans howner, hepoch.trans hlevel, hriding⟩

/-- A granted forfeiture leaves a seat on which nothing rides, level with the table. -/
theorem seat_of_forfeiture (hs : l.SeatsSound) (g : Operation.Forfeiture accounts l m) :
    g.cleared.1.owner = g.seat.owner ∧ g.cleared.1.hasRiding = false ∧
      g.booked.epoch = g.table.epoch := by
  have hsound := Ledger.sound_of_load hs g.seat_load
  exact ⟨(Seat.forfeit_ok hsound g.clear).owner, Seat.forfeit_clears hsound g.clear,
    congrArg Line.epoch (Table.line_book g.book)⟩

end House

end DiceHouse
