import DiceHouse.Proofs.House.Pace

/-!
# Rounds, table and seats in step

Either nothing was opened yet, or the rounds from 1 to a current one are there, all but the current
one drawn, and the table follows the rolls of the first so many of them. No seat is ahead of the
table, and the table is never ahead of the rounds that were drawn. Every reachable ledger is in
step; this is what the sequence of settlements rests on.
-/

namespace DiceHouse

namespace Ledger

/-- Nothing was opened yet. -/
structure Shut (l : Ledger) : Prop where
  cursor : l.cursor? = none
  draws : ∀ n, l.draw? n = none
  line : l.line? = none
  seats : ∀ o s, l.load .seat (.seat o) ≠ .ok s

/-- There are rounds up to a current one, and those before it were drawn. -/
structure RoundsTo (l : Ledger) (current : Nat) : Prop where
  cursor : l.cursor? = some current
  fits : current < Amount.limit
  waiting : l.draw? current = some (current, none)
  drawn : ∀ n, 1 ≤ n → n < current → ∃ square : Square, l.draw? n = some (n, some square.val)
  others : ∀ n, n = 0 ∨ current < n → l.draw? n = none

/-- The table took the rolls of some first of the rounds that were drawn. -/
structure Underway (l : Ledger) (current : Nat) (t : Table) (rolls : List Roll) : Prop
    extends l.RoundsTo current where
  table : l.load .table .table = .ok t
  follows : t.Follows rolls
  behind : rolls.length < current
  rolled : l.Rolled rolls
  configured : l.Configured
  seats : ∀ o s, l.load .seat (.seat o) = .ok s → s.owner = o ∧ s.epoch ≤ t.epoch

/-- The rounds, the table and the seats are in step. -/
def InStep (l : Ledger) : Prop := l.Shut ∨ ∃ current t rolls, l.Underway current t rolls

variable {l m : Ledger} {current n : Nat} {t t' : Table} {rolls : List Roll} {roll : Roll}
  {o : Address}

theorem load_of_line? {line : Line} (h : l.line? = some line) :
    ∃ t, l.load .table .table = .ok t ∧ t.line = line := by
  obtain ⟨t, ht, hline⟩ := Option.map_eq_some_iff.mp h
  exact ⟨t, toOption_eq_some_iff.mp ht, hline⟩

theorem Shut.table (h : l.Shut) (t : Table) : l.load .table .table ≠ .ok t := by
  intro ht
  have hline := h.line
  rw [line?_of_load ht] at hline
  cases hline

/-- Where there is a table, the house is under way. -/
theorem InStep.underway (h : l.InStep) (ht : l.load .table .table = .ok t) :
    ∃ current rolls, l.Underway current t rolls := by
  rcases h with hshut | ⟨current, t', rolls, hu⟩
  · exact absurd ht (hshut.table t)
  · cases hu.table.symm.trans ht
    exact ⟨current, rolls, hu⟩

/-- In step, where there is a board there is a table behind it. -/
theorem InStep.underway_of_board {b : Board} (h : l.InStep)
    (hb : l.load .board .board = .ok b) : ∃ t rolls, l.Underway b.round t rolls := by
  have hcursor := cursor?_of_load hb
  rcases h with hshut | ⟨current, t, rolls, hu⟩
  · rw [hshut.cursor] at hcursor
    cases hcursor
  · rw [hu.cursor] at hcursor
    cases hcursor
    exact ⟨t, rolls, hu⟩

/-- Only the rounds before the current one were drawn. -/
theorem RoundsTo.drawn_lt {id square : Nat} (h : l.RoundsTo current)
    (hdraw : l.draw? n = some (id, some square)) : 1 ≤ n ∧ n < current := by
  have hother : ¬(n = 0 ∨ current < n) := by
    intro hc
    rw [h.others n hc] at hdraw
    cases hdraw
  have hne : n ≠ current := by
    rintro rfl
    rw [h.waiting] at hdraw
    cases hdraw
  omega

theorem RoundsTo.resolved_lt (h : l.RoundsTo current) (hr : l.Resolved n roll) :
    1 ≤ n ∧ n < current := by
  obtain ⟨id, square, hdraw, -⟩ := resolved_iff.mp hr
  exact h.drawn_lt hdraw

/-- A round that is resolved is one of those before the current one, with its number and a roll of
two dice. -/
theorem RoundsTo.roll_of_isResolved {r : Round Address} (h : l.RoundsTo current)
    (hr : l.load .round (.round n) = .ok r) (hresolved : r.isResolved = true) :
    n < current ∧ r.id = n ∧ ∃ square, r.roll = .ok (Roll.ofSquare square) := by
  obtain ⟨number, hnumber⟩ := Option.isSome_iff_exists.mp hresolved
  have hdraw := draw?_of_load hr
  rw [hnumber] at hdraw
  obtain ⟨hpos, hlt⟩ := h.drawn_lt hdraw
  obtain ⟨square, hdrawn⟩ := h.drawn n hpos hlt
  cases hdraw.symm.trans hdrawn
  refine ⟨hlt, rfl, square, ?_⟩
  unfold Round.roll Round.winningSquare
  rw [hnumber]
  show Roll.ofSquare <$> Square.ofNumber square.val = _
  rw [Square.ofNumber_val]
  rfl

/-- The rounds that are there are those from 1 to the current one. -/
theorem RoundsTo.exists_iff (h : l.RoundsTo current) (hpos : 1 ≤ current) :
    (∃ r, l.load .round (.round n) = .ok r) ↔ 1 ≤ n ∧ n ≤ current := by
  constructor
  · rintro ⟨r, hr⟩
    have hother : ¬(n = 0 ∨ current < n) := by
      intro hc
      have hdraw := draw?_of_load hr
      rw [h.others n hc] at hdraw
      cases hdraw
    omega
  · rintro ⟨hn, hle⟩
    rcases Nat.lt_or_eq_of_le hle with hlt | rfl
    · obtain ⟨square, hdraw⟩ := h.drawn n hn hlt
      obtain ⟨r, hr, -⟩ := load_of_draw? hdraw
      exact ⟨r, hr⟩
    · obtain ⟨r, hr, -⟩ := load_of_draw? h.waiting
      exact ⟨r, hr⟩

/-- All of them but the current one were drawn. -/
theorem RoundsTo.isResolved_iff {r : Round Address} (h : l.RoundsTo current) (hpos : 1 ≤ current)
    (hr : l.load .round (.round n) = .ok r) : r.isResolved = true ↔ n ≠ current := by
  constructor
  · intro hresolved
    exact (h.roll_of_isResolved hr hresolved).1.ne
  · intro hne
    obtain ⟨hn, hle⟩ := (h.exists_iff hpos).mp ⟨r, hr⟩
    obtain ⟨square, hdraw⟩ := h.drawn n hn (Nat.lt_of_le_of_ne hle hne)
    have hwinner := congrArg Prod.snd (Option.some.inj ((draw?_of_load hr).symm.trans hdraw))
    rw [Round.isResolved, show r.winner = some square.val from hwinner, Option.isSome_some]

end Ledger

namespace House

open Ledger

variable {accounts : List Access} {l m : Ledger} {current n : Nat} {t t' : Table}
  {rolls : List Roll} {roll : Roll} {o : Address} {label : Option Nat}

/-! ## Seats -/

/-- Where nothing was opened no seat appears. -/
theorem SeatMove.shut (h : SeatMove accounts l m o label) (hl : l.Shut) (s : Seat Address) :
    m.load .seat (.seat o) ≠ .ok s := by
  cases h with
  | same h =>
    rw [h]
    exact hl.seats o s
  | collected hload _ => exact absurd hload (hl.seats o _)
  | wagered g _ => exact absurd g.table_load (hl.table _)
  | settled g _ => exact absurd g.table_load (hl.table _)
  | forfeited g _ => exact absurd g.table_load (hl.table _)

/-- A seat stays with its owner, and does not get ahead of the table. -/
theorem SeatMove.kept (h : SeatMove accounts l m o label) (hs : l.SeatsSound)
    (hseat : ∀ s, l.load .seat (.seat o) = .ok s → s.owner = o ∧ s.epoch ≤ t.epoch)
    (ht : l.load .table .table = .ok t) (ht' : m.load .table .table = .ok t')
    (hle : t.epoch ≤ t'.epoch) (s : Seat Address) (hm : m.load .seat (.seat o) = .ok s) :
    s.owner = o ∧ s.epoch ≤ t'.epoch := by
  cases h with
  | same h =>
    obtain ⟨howner, hepoch⟩ := hseat s (h.symm.trans hm)
    exact ⟨howner, hepoch.trans hle⟩
  | collected hload hafter =>
    cases hafter.symm.trans hm
    obtain ⟨howner, hepoch⟩ := hseat _ hload
    exact ⟨howner, hepoch.trans hle⟩
  | wagered g ho =>
    subst ho
    cases g.seat_after.symm.trans hm
    cases g.table_load.symm.trans ht
    obtain ⟨howner, hepoch, -⟩ := seat_of_bet hs g
    exact ⟨howner, hepoch.le.trans hle⟩
  | settled g ho =>
    subst ho
    cases g.seat_after.symm.trans hm
    cases g.table_after.symm.trans ht'
    have hplayed := Operation.playTurn_played g.play
    have hepoch : g.turn.1.epoch = g.rolled.1.epoch := congrArg Line.epoch hplayed.line
    refine ⟨hplayed.owner (sound_of_load hs g.seat_load), ?_⟩
    rw [hplayed.epoch, hepoch]
    exact hplayed.le
  | forfeited g ho =>
    subst ho
    cases g.seat_after.symm.trans hm
    cases g.table_after.symm.trans ht'
    exact ⟨(seat_of_forfeiture hs g).1, Nat.le_refl _⟩

/-! ## One step -/

section Step

variable {current' : Nat}

theorem underway_opening (hmove : ∀ o, ∃ accounts label, SeatMove accounts l m o label) (h : l.Shut)
    (hcursor' : m.cursor? = some 1) (hdraw' : m.draw? 1 = some (1, none))
    (hothers : ∀ n, n ≠ 1 → m.draw? n = l.draw? n)
    (htable' : m.load .table .table = .ok (Table.blank.setPhase .comeOut))
    (hsettings' : m.Configured) : m.Underway 1 (Table.blank.setPhase .comeOut) [] where
  cursor := hcursor'
  fits := by decide
  waiting := hdraw'
  drawn n hpos hlt := absurd hlt (Nat.not_lt_of_le hpos)
  others n hn := by
    rw [hothers n (by omega)]
    exact h.draws n
  table := htable'
  follows := Table.follows_fresh
  behind := Nat.zero_lt_one
  rolled n roll hn := by cases hn
  configured := hsettings'
  seats o s hload := by
    obtain ⟨accounts, label, ho⟩ := hmove o
    exact absurd hload (ho.shut h s)

/-- Drawing the current round and opening the next. -/
theorem roundsTo_drawing {square : Square} (h : l.RoundsTo current)
    (hfits : current + 1 < Amount.limit) (hcursor' : m.cursor? = some (current + 1))
    (hdraw' : m.draw? current = some (current, some square.val))
    (hnext' : m.draw? (current + 1) = some (current + 1, none))
    (hothers : ∀ k, k ≠ current → k ≠ current + 1 → m.draw? k = l.draw? k)
    (hpos : 1 ≤ current) : m.RoundsTo (current + 1) where
  cursor := hcursor'
  fits := hfits
  waiting := hnext'
  drawn n hn hlt := by
    rcases Nat.lt_or_eq_of_le (Nat.lt_succ_iff.mp hlt) with hold | rfl
    · rw [hothers n (by omega) (by omega)]
      exact h.drawn n hn hold
    · exact ⟨square, hdraw'⟩
  others n hn := by
    rw [hothers n (by omega) (by omega)]
    exact h.others n (by omega)

theorem roundsTo_congr (h : l.RoundsTo current) (hcursor : m.cursor? = l.cursor?)
    (hdraw : ∀ n, m.draw? n = l.draw? n) : m.RoundsTo current where
  cursor := hcursor.trans h.cursor
  fits := h.fits
  waiting := (hdraw _).trans h.waiting
  drawn n hpos hlt := by
    rw [hdraw n]
    exact h.drawn n hpos hlt
  others n hn := (hdraw n).trans (h.others n hn)

/-- The table stays behind the rounds, whether it keeps its line or takes a roll. -/
theorem underway_line (hs : l.SeatsSound)
    (hmove : ∀ o, ∃ accounts label, SeatMove accounts l m o label)
    (h : l.Underway current t rolls) (hrounds : m.RoundsTo current') (hle : current ≤ current')
    (hkept : ∀ n < current, m.draw? n = l.draw? n)
    (hline : m.line? = l.line? ∨ ∃ n roll, l.Takes m n roll)
    (hsettings : l.Configured → m.Configured) :
    ∃ t' rolls', m.Underway current' t' rolls' := by
  -- the rolls that the line followed or takes were drawn before, and stay
  have hrolled : ∀ rolls', l.Rolled rolls' → m.Rolled rolls' := by
    intro rolls' h' n roll hn
    have hr := h' n roll hn
    exact hr.congr (hkept _ (h.resolved_lt hr).2)
  have hseats : ∀ t', m.load .table .table = .ok t' → t.epoch ≤ t'.epoch →
      ∀ o s, m.load .seat (.seat o) = .ok s → s.owner = o ∧ s.epoch ≤ t'.epoch := by
    intro t' ht' hepoch o
    obtain ⟨accounts, label, ho⟩ := hmove o
    exact ho.kept hs (h.seats o) h.table ht' hepoch
  rcases hline with hsame | ⟨n, roll, hr, t₀, taken, call, ht₀, htake, hline⟩
  · obtain ⟨t', ht', hline⟩ := load_of_line? (hsame.trans (line?_of_load h.table))
    have hepoch : t'.epoch = t.epoch := congrArg Line.epoch hline
    exact ⟨t', rolls, hrounds, ht', h.follows.congr hline, h.behind.trans_le hle,
      hrolled rolls h.rolled, hsettings h.configured, hseats t' ht' hepoch.ge⟩
  · cases h.table.symm.trans ht₀
    obtain ⟨rfl, hfollows⟩ := h.follows.applyRoll hr.square htake
    obtain ⟨t', ht', hline⟩ := load_of_line? hline
    have hfollows' := hfollows.congr hline
    have hlength : (rolls ++ [roll]).length = rolls.length + 1 := List.length_append
    have hepoch : t.epoch ≤ t'.epoch := by
      rw [h.follows.epoch, hfollows'.epoch, hlength]
      exact Nat.le_succ _
    refine ⟨t', rolls ++ [roll], hrounds, ht', hfollows', ?_, hrolled _ (h.rolled.concat hr),
      hsettings h.configured, hseats t' ht' hepoch⟩
    rw [hlength]
    exact (h.resolved_lt hr).2.trans_le hle

/-- One step keeps rounds, table and seats in step. -/
theorem inStep_pace (hs : l.SeatsSound)
    (hmove : ∀ o, ∃ accounts label, SeatMove accounts l m o label) (hp : Pace l m)
    (h : l.InStep) : m.InStep := by
  rcases h with hshut | ⟨current, t, rolls, hu⟩
  · cases hp with
    | opening _ _ _ hcursor' hdraw' hothers htable' hsettings' =>
      exact .inr ⟨1, _, [],
        underway_opening hmove hshut hcursor' hdraw' hothers htable' hsettings'⟩
    | drawing hcursor =>
      rw [hshut.cursor] at hcursor
      cases hcursor
    | playing hcursor hdraw hline _ =>
      refine .inl ⟨hcursor.trans hshut.cursor, fun n => (hdraw n).trans (hshut.draws n), ?_,
        fun o s => ?_⟩
      · rcases hline with hsame | ⟨n, roll, -, t₀, taken, call, ht₀, -⟩
        · exact hsame.trans hshut.line
        · exact absurd ht₀ (hshut.table t₀)
      · obtain ⟨accounts, label, ho⟩ := hmove o
        exact ho.shut hshut s
  · right
    cases hp with
    | opening hcursor =>
      rw [hu.cursor] at hcursor
      cases hcursor
    | @drawing n square hcursor hfits hdraw hcursor' hdraw' hnext' hothers hline hsettings =>
      obtain rfl : current = n := Option.some.inj (hu.cursor.symm.trans hcursor)
      have hpos : 1 ≤ current := Nat.one_le_of_lt hu.behind
      exact ⟨current + 1, underway_line hs hmove hu
        (roundsTo_drawing hu.toRoundsTo hfits hcursor' hdraw' hnext' hothers hpos) (Nat.le_succ _)
        (fun k hk => hothers k hk.ne (Nat.lt_succ_of_lt hk).ne) (.inl hline) hsettings⟩
    | playing hcursor hdraw hline hsettings =>
      exact ⟨current, underway_line hs hmove hu (roundsTo_congr hu.toRoundsTo hcursor hdraw)
        (Nat.le_refl _) (fun n _ => hdraw n) hline hsettings⟩

/-- A roll stays that of its round. -/
theorem resolved_pace (hp : Pace l m) (h : l.InStep) (hr : l.Resolved n roll) :
    m.Resolved n roll := by
  refine hr.congr ?_
  obtain ⟨id, square, hdraw, -⟩ := resolved_iff.mp hr
  cases hp with
  | opening _ hfirst _ _ _ hothers =>
    refine hothers n ?_
    rintro rfl
    rw [hfirst] at hdraw
    cases hdraw
  | @drawing k square hcursor _ _ _ _ _ hothers =>
    rcases h with hshut | ⟨current, t, rolls, hu⟩
    · rw [hshut.cursor] at hcursor
      cases hcursor
    · obtain rfl : current = k := Option.some.inj (hu.cursor.symm.trans hcursor)
      have hlt := (hu.resolved_lt hr).2
      exact hothers n hlt.ne (Nat.lt_succ_of_lt hlt).ne
  | playing _ hsame => exact hsame n

end Step

/-! ## Whole moves -/

/-- The round against which a call settles the seat of a player. -/
def settledAgainst? (l : Ledger) (call : Nat × Instruction) (owner : Address) : Option Nat :=
  match Request.decode call.2.data, process call.1 call.2 l with
  | some request, .ok _ => settlesBy? request call.2.accounts owner
  | _, _ => none

theorem step_seatMove (l : Ledger) (call : Nat × Instruction) (o : Address) :
    SeatMove (Access.unify call.2.accounts) l (step l call) o (settledAgainst? l call o) := by
  show SeatMove _ l _ o
    (reportOf (fun request accounts _ => settlesBy? request accounts o) l call)
  refine step_report (P := fun m label => SeatMove (Access.unify call.2.accounts) l m o label)
    (.same rfl) fun {request s} h => ?_
  rw [← settlesBy?_unify]
  exact serve_seatMove h o

theorem step_pace (l : Ledger) (call : Nat × Instruction) : Pace l (step l call) := by
  rcases step_cases l call.1 call.2 with hsame | hg
  · rw [hsame]
    exact .idle rfl (fun _ => rfl) rfl (.inl rfl)
  · exact hg.pace

variable {allowed : Instruction → Prop} {outside : Ledger → Ledger → Prop}

theorem inStep_genesis (used : List Address) : (Ledger.genesis used).InStep :=
  .inl ⟨rfl, fun _ => rfl, rfl, fun _ _ h => nomatch h⟩

/-- A move of the house, or of others, is a step for the rounds and the line and one for each
seat. -/
theorem Move.pace (houtside : ∀ l m, outside l m → l.Outside m)
    (h : Move allowed outside l m) :
    Pace l m ∧ ∀ o, ∃ accounts label, SeatMove accounts l m o label := by
  cases h with
  | call slot hi =>
    exact ⟨step_pace l (slot, _), fun o => ⟨_, _, step_seatMove l (slot, _) o⟩⟩
  | other ho =>
    have ho := houtside _ _ ho
    exact ⟨pace_outside ho, fun o =>
      ⟨[], none, .same ((ho.own _ (by simp [Address.seeds?])).load _)⟩⟩

/-- Whatever was called, the rounds, the table and the seats are in step. -/
theorem Reachable.inStep (houtside : ∀ l m, outside l m → l.Outside m)
    (h : Reachable allowed outside l) : l.InStep := by
  obtain ⟨used, hr⟩ := h
  induction hr with
  | refl => exact inStep_genesis used
  | @tail l m hr hmove ih =>
    have hsound : l.SeatsSound := (Reachable.reserved houtside ⟨used, hr⟩).sound
    obtain ⟨hp, hmoves⟩ := hmove.pace houtside
    exact inStep_pace hsound hmoves hp ih

end House

end DiceHouse
