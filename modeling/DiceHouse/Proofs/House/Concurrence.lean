import DiceHouse.Proofs.House.Progress
import DiceHouse.Proofs.Table.Bookings

/-!
# Settlements in any order

Calls that settle different seats against one round can come in any order, and calls that only bring
the table up to the round can stand anywhere among them. What a settlement comes to hangs on the seat
and on the line once it has the roll (`Table.judge`); only the first call moves the line, and what the
others book moves money that no later one is short of, since the chips cover every seat at once. So
the answer to a call is told by the ledger before all of them (`Ledger.judged`), and the table they
leave by the sum of what was due (`Ledger.due`). `Midway` is the invariant of the calls so far.
-/

namespace DiceHouse

/-! ## The turn of one seat -/

section Judge

variable {κ : Type}

/-- What the turn of a seat comes to at a table that has the roll: the seat afterwards, and the tally
to book if its wagers were judged. -/
def Table.judge (t : Table) (seat : Seat κ) (round : Nat) (roll : Roll) (fieldTriple : Bool) :
    Except Fault (Seat κ × Option Tally) := do
  match ← t.turn seat.epoch seat.hasRiding round with
  | .sync => return ({ seat with epoch := round }, none)
  | .settle phase =>
    let settled ← seat.settle phase roll fieldTriple
    return ({ settled.1 with epoch := round }, some settled.2)

/-- Books a tally if there is one. -/
def Table.bookAny (t : Table) : Option Tally → Except Fault Table
  | none => .ok t
  | some tally => t.book tally.profit tally.lost tally.released

variable {t u : Table} {n : Nat} {roll : Roll} {fieldTriple : Bool}

theorem Table.judge_congr (h : u.line = t.line) (seat : Seat κ) :
    u.judge seat n roll fieldTriple = t.judge seat n roll fieldTriple := by
  unfold judge
  rw [turn_congr h]

variable {seat : Seat Address} {judged : Seat Address × Option Tally}

theorem playTurn_of_judge_error {f : Fault}
    (h : t.judge seat n roll fieldTriple = .error f) :
    Operation.playTurn t seat n roll fieldTriple = .error f := by
  unfold Table.judge at h
  unfold Operation.playTurn
  rcases bind_eq_error_iff.mp h with hturn | ⟨way, hturn, h⟩
  · rw [hturn, error_bind]
  · rw [hturn, ok_bind]
    cases way with
    | sync => exact absurd h pure_ne_error
    | settle phase =>
      rcases bind_eq_error_iff.mp h with hsettle | ⟨settled, -, h⟩
      · dsimp only
        rw [hsettle, error_bind]
      · exact absurd h pure_ne_error

theorem playTurn_of_judge (h : t.judge seat n roll fieldTriple = .ok judged)
    (hbook : t.bookAny judged.2 = .ok u) :
    ∃ text, Operation.playTurn t seat n roll fieldTriple = .ok (u, judged.1, text) := by
  unfold Table.judge at h
  unfold Operation.playTurn
  obtain ⟨way, hturn, h⟩ := bind_eq_ok_iff.mp h
  rw [hturn, ok_bind]
  cases way with
  | sync =>
    rw [pure_eq_ok_iff] at h
    subst h
    cases hbook
    exact ⟨_, rfl⟩
  | settle phase =>
    simp only [bind_eq_ok_iff, pure_eq_ok_iff] at h
    obtain ⟨settled, hsettle, rfl⟩ := h
    have hbooked : t.book settled.2.profit settled.2.lost settled.2.released = .ok u := hbook
    dsimp only
    rw [hsettle, ok_bind, hbooked, ok_bind]
    exact ⟨_, rfl⟩

end Judge

namespace Ledger

/-- What settling the seat of a player against a round comes to, the table's booking aside. -/
def judged (l : Ledger) (n : Nat) (owner : Address) :
    Except Refusal (Seat Address × Option Tally) := do
  let config : Settings Address ← l.load .settings .settings
  let t : Table ← l.load .table .table
  let seat : Seat Address ← l.load .seat (.seat owner)
  let r : Round Address ← l.load .round (.round n)
  let roll ← r.roll
  let rolled ← t.catchUp n roll
  rolled.1.judge seat n roll config.fieldTriple

/-- The tally that settling the seat of a player against a round has the table book. -/
def tally? (l : Ledger) (n : Nat) (owner : Address) : Option Tally :=
  (l.judged n owner).toOption.bind Prod.snd

/-- The same tally, which is nothing where nothing is booked. -/
def due (l : Ledger) (n : Nat) (owner : Address) : Tally := (l.tally? n owner).getD 0

/-- How often settling the seat of a player has the table book. -/
def bookings (l : Ledger) (n : Nat) (owner : Address) : Nat := (l.tally? n owner).toList.length

/-- The seat of a player after it was settled against a round, or refused to be. -/
def seatAfter (l : Ledger) (n : Nat) (owner : Address) : Except Refusal (Seat Address) :=
  match l.judged n owner with
  | .ok judged => .ok judged.1
  | .error _ => l.load .seat (.seat owner)

/-- A resolved round, and what a settlement against it reads. -/
structure Facing (l : Ledger) (n : Nat) (config : Settings Address) (t : Table)
    (r : Round Address) (roll : Roll) : Prop where
  settings : l.load .settings .settings = .ok config
  table : l.load .table .table = .ok t
  round : l.load .round (.round n) = .ok r
  number : r.id = n
  shown : r.roll = .ok roll
  square : ∃ square, roll = Roll.ofSquare square
  owners : ∀ o s, l.load .seat (.seat o) = .ok s → s.owner = o

variable {l m : Ledger} {n : Nat} {owner : Address} {config : Settings Address} {t t' : Table}
  {r : Round Address} {roll : Roll} {seat : Seat Address} {rolled : Table × Option Call}

theorem Facing.judged_eq (h : l.Facing n config t r roll)
    (hs : l.load .seat (.seat owner) = .ok seat) (hcatch : t.catchUp n roll = .ok rolled) :
    l.judged n owner = liftM (rolled.1.judge seat n roll config.fieldTriple) := by
  unfold judged
  simp only [h.settings, h.table, hs, h.round, h.shown, hcatch, ok_bind, liftM_ok]

theorem Facing.judged_of_error {f : Fault} (h : l.Facing n config t r roll)
    (hs : l.load .seat (.seat owner) = .ok seat) (hcatch : t.catchUp n roll = .error f) :
    l.judged n owner = .error (.fault f) := by
  unfold judged
  simp only [h.settings, h.table, hs, h.round, h.shown, hcatch, ok_bind, liftM_ok]
  rfl

end Ledger

namespace House

open Ledger

/-- Why settling the seat of a player against a round is refused, if it is. -/
def declined? (l : Ledger) (n : Nat) (owner : Address) : Option Refusal :=
  match l.judged n owner with
  | .ok _ => none
  | .error refusal => some refusal

/-- A call to settle the seat of a player against a round, or one to bring the table up to it. -/
inductive Asks (n : Nat) : Option Address → Instruction → Prop where
  | settle {owner : Address} {i : Instruction} (h : SettleCall i owner n) (hauth : Authentic i) :
    Asks n (some owner) i
  | advance {i : Instruction} (h : AdvanceCall i n) (hauth : Authentic i) : Asks n none i

/-- Calls, each with the player whose seat it settles, if it settles one. -/
abbrev Calls := List (Option Address × Nat × Instruction)

/-- The players whose seats some calls settle, in order. -/
def Calls.served (calls : Calls) : List Address := calls.filterMap Prod.fst

/-- The ledger after some calls. -/
def Calls.after (calls : Calls) (l : Ledger) : Ledger := run l (calls.map Prod.snd)

/-- The calls settle the seats of these players against a round, each once, and otherwise at most
bring the table up to it. -/
structure Calls.Settle (calls : Calls) (n : Nat) (owners : List Address) : Prop where
  asks : ∀ c ∈ calls, Asks n c.1 c.2.2
  served : calls.served.Perm owners

/-- A call was granted by which the table has the roll, at the latest. -/
def Moved (l : Ledger) (n : Nat) (calls : Calls) : Prop :=
  (∃ c ∈ calls, c.1 = none) ∨ ∃ o ∈ calls.served, declined? l n o = none

/-- How far calls that settle seats have come. -/
structure Midway (l : Ledger) (n : Nat) (t caught : Table) (calls : Calls) (m : Ledger) : Prop where
  cover : m.ChipsCover
  seats : ∀ o, m.load .seat (.seat o)
    = if o ∈ calls.served then l.seatAfter n o else l.load .seat (.seat o)
  rest : ∀ a, a ≠ .table → (∀ o ∈ calls.served, a ≠ .seat o) → Agree l m a
  table : ∃ t', m.load .table .table = .ok t' ∧ (¬Moved l n calls → t' = t) ∧
    (Moved l n calls → caught.Booked (calls.served.map (l.due n)).sum
      (calls.served.map (l.bookings n)).sum t')

variable {l m m' : Ledger} {n slot : Nat} {o : Address} {config : Settings Address}
  {t caught : Table} {r : Round Address} {roll : Roll} {rolled : Table × Option Call}
  {calls : Calls} {i : Instruction} {s : Seat Address}

theorem served_append (before after : Calls) :
    Calls.served (before ++ after) = before.served ++ after.served :=
  List.filterMap_append

theorem served_concat_settle (calls : Calls) (o : Address) (call : Nat × Instruction) :
    Calls.served (calls ++ [(some o, call)]) = calls.served ++ [o] :=
  served_append calls [(some o, call)]

theorem served_concat_advance (calls : Calls) (call : Nat × Instruction) :
    Calls.served (calls ++ [(none, call)]) = calls.served :=
  (served_append calls [(none, call)]).trans (List.append_nil _)

theorem moved_concat_settle {call : Nat × Instruction} :
    Moved l n (calls ++ [(some o, call)]) ↔ Moved l n calls ∨ declined? l n o = none := by
  unfold Moved
  rw [served_concat_settle]
  simp only [List.mem_append, List.mem_singleton, or_and_right, exists_or, exists_eq_left,
    reduceCtorEq, or_false, or_assoc]

theorem moved_concat_advance {call : Nat × Instruction} :
    Moved l n (calls ++ [(none, call)]) :=
  .inl ⟨_, List.mem_append_right _ List.mem_cons_self, rfl⟩

theorem due_of_declined (h : declined? l n o ≠ none) : l.due n o = 0 ∧ l.bookings n o = 0 := by
  unfold declined? at h
  unfold due bookings tally?
  split at h
  · exact absurd rfl h
  · next herror =>
    rw [herror]
    exact ⟨rfl, rfl⟩

/-- Where no call moved the table, nothing was due. -/
theorem sums_of_not_moved (h : ¬Moved l n calls) :
    (calls.served.map (l.due n)).sum = 0 ∧ (calls.served.map (l.bookings n)).sum = 0 := by
  have hnone : ∀ o ∈ calls.served, l.due n o = 0 ∧ l.bookings n o = 0 :=
    fun o ho => due_of_declined fun hc => h (.inr ⟨o, ho, hc⟩)
  constructor
  · refine List.sum_eq_zero fun x hx => ?_
    obtain ⟨o, ho, rfl⟩ := List.mem_map.mp hx
    exact (hnone o ho).1
  · refine List.sum_eq_zero fun x hx => ?_
    obtain ⟨o, ho, rfl⟩ := List.mem_map.mp hx
    exact (hnone o ho).2

/-- Whether or not the table has the roll already, it is the same table once it does. -/
theorem Midway.caughtUp (h : Midway l n t rolled.1 calls m) (hcatch : t.catchUp n roll = .ok rolled) :
    ∃ t' q, m.load .table .table = .ok t' ∧ t'.catchUp n roll = .ok q ∧
      rolled.1.Booked (calls.served.map (l.due n)).sum (calls.served.map (l.bookings n)).sum q.1 := by
  obtain ⟨t', ht', hstill, hmoved⟩ := h.table
  by_cases hm : Moved l n calls
  · have hbooked := hmoved hm
    exact ⟨t', (t', none), ht', Table.catchUp_again hcatch hbooked.line, hbooked⟩
  · obtain ⟨hdue, hcount⟩ := sums_of_not_moved hm
    rw [hdue, hcount]
    rw [hstill hm] at ht'
    exact ⟨t, rolled, ht', hcatch, .refl _⟩

/-! ## One call -/

/-- What a judged seat has to book is booked: chips cover every seat at the table, so the bankroll is
never short because others were settled first. -/
theorem exists_bookAny {t' u : Table} {judged : Seat Address × Option Tally}
    (hcover : m.ChipsCover) (ht : m.load .table .table = .ok t') (hs : s ∈ m.seats)
    (hbankroll : u.bankroll = t'.bankroll) (hreserved : u.reserved = t'.reserved)
    (hroll : ∃ square, roll = Roll.ofSquare square) {fieldTriple : Bool}
    (hjudge : u.judge s n roll fieldTriple = .ok judged)
    (hfit : u.CountersFit (judged.2.getD 0)) : ∃ booked, u.bookAny judged.2 = .ok booked := by
  unfold Table.judge at hjudge
  obtain ⟨way, hturn, h⟩ := bind_eq_ok_iff.mp hjudge
  cases way with
  | sync =>
    rw [pure_eq_ok_iff] at h
    subst h
    exact ⟨u, rfl⟩
  | settle phase =>
    simp only [bind_eq_ok_iff, pure_eq_ok_iff] at h
    obtain ⟨settled, hsettle, rfl⟩ := h
    rw [Seat.settle_eq] at hsettle
    simp only [bind_eq_ok_iff, pure_eq_ok_iff] at hsettle
    obtain ⟨d, hd, after, -, rfl⟩ := hsettle
    obtain ⟨hexposure, hsolvent, hroom⟩ := room_of_seat hcover ht hs
    obtain ⟨d', hd', hdecided⟩ := Seat.decided_ok (hcover.sound s hs) (Table.valid_of_turn hturn)
      hroll (by omega) fieldTriple
    cases hd'.symm.trans hd
    obtain ⟨⟨hgrown, hprofit, hreleased⟩, -⟩ := affords_of_decided hcover ht hs hdecided
    have hafford : u.Affords d.2 :=
      ⟨hbankroll ▸ hgrown, hbankroll ▸ hprofit, hreserved ▸ hreleased⟩
    exact Table.book_of_fits hafford hfit

/-- What is booked for a seat is what was due for it, once if at all. -/
theorem booked_due {u v : Table} {total : Tally} {count : Nat}
    {judged : Seat Address × Option Tally} (hj : l.judged n o = .ok judged)
    (h : caught.Booked total count u) (hbook : u.bookAny judged.2 = .ok v) :
    caught.Booked (total + l.due n o) (count + l.bookings n o) v := by
  unfold due bookings tally?
  rw [hj]
  obtain ⟨seat, tally?⟩ := judged
  cases tally? with
  | none =>
    cases hbook
    exact h
  | some tally => exact h.book hbook

theorem chipsCover_call (h : m.ChipsCover) {session : Session} (hauth : Authentic i)
    (hp : process slot i m = .ok session) : session.ledger.ChipsCover :=
  chipsCover_books (Access.Authentic.unify hauth) h ((process_ok hp).books h.sound)

theorem step_of_granted {session : Session} (hp : process slot i m = .ok session) :
    step m (slot, i) = session.ledger := by
  unfold step
  rw [hp]

/-- A call that is declined leaves everything as it was. -/
theorem Midway.declined {refusal : Refusal} {call : Nat × Instruction}
    (h : Midway l n t caught calls m) (hj : l.judged n o = .error refusal) :
    Midway l n t caught (calls ++ [(some o, call)]) m := by
  have hdeclined : declined? l n o ≠ none := by
    unfold declined?
    rw [hj]
    exact Option.some_ne_none _
  have hafter : l.seatAfter n o = l.load .seat (.seat o) := by
    unfold seatAfter
    rw [hj]
  obtain ⟨hdue, hcount⟩ := due_of_declined hdeclined
  obtain ⟨t', ht', hstill, hbooked⟩ := h.table
  have hserved := served_concat_settle calls o call
  refine ⟨h.cover, fun a => ?_, fun a hat ha => ?_, t', ht', fun hm => ?_, fun hm => ?_⟩
  · rw [h.seats, hserved]
    simp only [List.mem_append, List.mem_singleton]
    by_cases hc : a = o
    · subst hc
      have hmem : a ∈ calls.served ∨ a = a := .inr rfl
      rw [if_pos hmem, hafter, ite_self]
    · simp only [hc, or_false]
  · exact h.rest a hat fun b hb => ha b (by rw [hserved]; exact List.mem_append_left _ hb)
  · exact hstill fun hc => hm (moved_concat_settle.mpr (.inl hc))
  · rw [hserved, List.map_append, List.sum_append, List.map_append, List.sum_append]
    simp only [List.map_cons, List.map_nil, List.sum_cons, List.sum_nil, hdue, hcount, add_zero]
    exact hbooked ((moved_concat_settle.mp hm).resolve_right hdeclined)

/-- A call that is granted writes the seat and books what was due. -/
theorem Midway.granted {judged : Seat Address × Option Tally} {call : Nat × Instruction} {u : Table}
    (h : Midway l n t caught calls m) (hj : l.judged n o = .ok judged)
    (hs : (m (.seat o)).owner = .program) (hcover : m'.ChipsCover)
    (hm' : m' = (m.store .table .table u).store .seat (.seat o) judged.1)
    (hbooked : caught.Booked ((calls.served.map (l.due n)).sum + l.due n o)
      ((calls.served.map (l.bookings n)).sum + l.bookings n o) u) :
    Midway l n t caught (calls ++ [(some o, call)]) m' := by
  have hdeclined : declined? l n o = none := by
    unfold declined?
    rw [hj]
  have hafter : l.seatAfter n o = .ok judged.1 := by
    unfold seatAfter
    rw [hj]
  obtain ⟨t', ht', -, -⟩ := h.table
  have hserved := served_concat_settle calls o call
  refine ⟨hcover, fun a => ?_, fun a hat ha => ?_, u, ?_, fun hm => ?_, fun _ => ?_⟩
  · rw [hserved, hm']
    simp only [List.mem_append, List.mem_singleton]
    by_cases hc : a = o
    · subst hc
      rw [if_pos (.inr rfl), hafter]
      exact Ledger.load_store _ .seat _ judged.1 (by rw [Ledger.owner_store]; exact hs)
    · rw [Ledger.load_store_of_ne _ _ (by simpa using hc), Ledger.load_store_of_ne _ _ (by simp),
        h.seats]
      simp only [hc, or_false]
  · have hold : ∀ b ∈ calls.served, a ≠ .seat b :=
      fun b hb => ha b (by rw [hserved]; exact List.mem_append_left _ hb)
    have hnew : a ≠ .seat o := ha o (by rw [hserved]; exact List.mem_append_right _ (by simp))
    rw [hm']
    exact ((h.rest a hat hold).trans (Ledger.agree_store _ _ _ hat)).trans
      (Ledger.agree_store _ _ _ hnew)
  · rw [hm', Ledger.load_store_of_ne _ _ (by simp)]
    exact Ledger.load_store _ .table _ u (Ledger.owner_of_load ht')
  · exact absurd (moved_concat_settle.mpr (.inr hdeclined)) hm
  · rw [hserved, List.map_append, List.sum_append, List.map_append, List.sum_append]
    simpa only [List.map_cons, List.map_nil, List.sum_cons, List.sum_nil, add_zero] using hbooked

/-- A call to settle a seat that was not settled yet is answered as on the ledger before all calls,
and adds what was due. -/
theorem Midway.settle (h : Midway l n t rolled.1 calls m) (hface : l.Facing n config t r roll)
    (hcatch : t.catchUp n roll = .ok rolled) (hs : l.load .seat (.seat o) = .ok s)
    (ho : o ∉ calls.served) (hi : SettleCall i o n) (hauth : Authentic i)
    (hfit : t.CountersFit ((calls.served.map (l.due n)).sum + l.due n o)) :
    refusal? m (slot, i) = declined? l n o ∧
      Midway l n t rolled.1 (calls ++ [(some o, slot, i)]) (step m (slot, i)) := by
  obtain ⟨t', q, ht', hq, hbooked⟩ := h.caughtUp hcatch
  obtain rfl : s.owner = o := hface.owners o s hs
  have hms : m.load .seat (.seat s.owner) = .ok s := by
    rw [h.seats, if_neg ho]
    exact hs
  have hconfig : m.load .settings .settings = .ok config :=
    ((h.rest _ (by simp) (by simp)).load _).trans hface.settings
  have hround : m.load .round (.round n) = .ok r :=
    ((h.rest _ (by simp) (by simp)).load _).trans hface.round
  have hjudged := hface.judged_eq hs hcatch
  rw [← Table.judge_congr hbooked.line] at hjudged
  obtain ⟨hgrant, hrefuse, -⟩ :=
    settle_call_turn slot hi hconfig ht' hms hround hface.number hface.shown
  unfold refusal? declined?
  cases hj : q.1.judge s n roll config.fieldTriple with
  | error f =>
    rw [hj] at hjudged
    have hp : process slot i m = .error (.fault f) := hrefuse q f hq (playTurn_of_judge_error hj)
    rw [hp, step_of_refused hp, hjudged]
    exact ⟨rfl, h.declined hjudged⟩
  | ok judged =>
    rw [hj] at hjudged
    have hdue : l.due n s.owner = judged.2.getD 0 := by
      unfold due tally?
      rw [hjudged]
      rfl
    -- the roll moved no money, so there is room for what is due here and before
    obtain ⟨hbankroll, hreserved, -, -⟩ := Table.catchUp_ok hq
    obtain ⟨-, -, hcollected, hpayouts⟩ := Table.catchUp_ok hcatch
    have hroom : q.1.CountersFit (judged.2.getD 0) := by
      rw [hbooked.countersFit_iff, ← hdue]
      unfold Table.CountersFit at hfit ⊢
      rwa [hcollected, hpayouts]
    obtain ⟨u, hu⟩ := exists_bookAny h.cover ht' (mem_seats.mpr ⟨_, hms⟩) hbankroll hreserved
      hface.square hj hroom
    obtain ⟨text, hplay⟩ := playTurn_of_judge hj hu
    obtain ⟨session, hp, hledger⟩ := hgrant q _ hq hplay
    rw [hp, step_of_granted hp, hjudged]
    exact ⟨rfl, h.granted hjudged (Ledger.owner_of_load hms) (chipsCover_call h.cover hauth hp) hledger
      (booked_due hjudged hbooked hu)⟩

/-- A call to bring the table up to the round leaves nothing due. -/
theorem Midway.advance (h : Midway l n t rolled.1 calls m) (hface : l.Facing n config t r roll)
    (hcatch : t.catchUp n roll = .ok rolled) (hi : AdvanceCall i n) (hauth : Authentic i) :
    Midway l n t rolled.1 (calls ++ [(none, slot, i)]) (step m (slot, i)) := by
  obtain ⟨t', q, ht', hq, hbooked⟩ := h.caughtUp hcatch
  have hround : m.load .round (.round n) = .ok r :=
    ((h.rest _ (by simp) (by simp)).load _).trans hface.round
  obtain ⟨hgrant, -⟩ := advance_call slot hi ht' hround hface.number hface.shown
  obtain ⟨session, hp, hledger⟩ := hgrant q hq
  have hserved := served_concat_advance calls (slot, i)
  have htable : session.ledger.load .table .table = .ok q.1 := by
    rcases hledger with hstored | ⟨hsame, hstill⟩
    · rw [hstored]
      exact Ledger.load_store _ .table _ q.1 (Ledger.owner_of_load ht')
    · rw [hsame, hstill]
      exact ht'
  have hrest : ∀ a, a ≠ .table → Agree m session.ledger a := by
    intro a ha
    rcases hledger with hstored | ⟨hsame, -⟩
    · rw [hstored]
      exact Ledger.agree_store _ _ _ ha
    · rw [hsame]
      exact .refl _ a
  rw [step_of_granted hp]
  refine ⟨chipsCover_call h.cover hauth hp, fun a => ?_, fun a hat ha => ?_, q.1, htable, fun hm => ?_,
    fun _ => ?_⟩
  · rw [hserved, (hrest (.seat a) (by simp)).load, h.seats]
  · rw [hserved] at ha
    exact (h.rest a hat ha).trans (hrest a hat)
  · exact absurd moved_concat_advance hm
  · rw [hserved]
    exact hbooked

/-! ## Whole schedules -/

theorem midway_nil (hcover : l.ChipsCover) (ht : l.load .table .table = .ok t) :
    Midway l n t caught [] l where
  cover := hcover
  seats o := (if_neg List.not_mem_nil).symm
  rest a _ _ := .refl l a
  table := by
    refine ⟨t, ht, fun _ => rfl, fun hm => ?_⟩
    rcases hm with ⟨c, hc, -⟩ | ⟨o, ho, -⟩
    · exact absurd hc List.not_mem_nil
    · exact absurd ho List.not_mem_nil

theorem after_nil (l : Ledger) : Calls.after [] l = l := rfl

theorem after_concat (calls : Calls) (o? : Option Address) (call : Nat × Instruction) :
    Calls.after (calls ++ [(o?, call)]) l = step (calls.after l) call := by
  unfold Calls.after
  rw [List.map_append, run_append]
  rfl

/-- Calls that settle different seats keep the invariant. -/
theorem midway_after (hface : l.Facing n config t r roll) (hcatch : t.catchUp n roll = .ok rolled)
    (hcover : l.ChipsCover) (hasks : ∀ c ∈ calls, Asks n c.1 c.2.2) (hnodup : calls.served.Nodup)
    (hseats : ∀ o ∈ calls.served, ∃ s, l.load .seat (.seat o) = .ok s)
    (hfit : t.CountersFit (calls.served.map (l.due n)).sum) :
    Midway l n t rolled.1 calls (calls.after l) := by
  induction calls using List.reverseRecOn with
  | nil => exact midway_nil hcover hface.table
  | append_singleton calls c ih =>
    obtain ⟨o?, slot, i⟩ := c
    have hbefore : ∀ c ∈ calls, Asks n c.1 c.2.2 :=
      fun c hc => hasks c (List.mem_append_left _ hc)
    have hlast : Asks n o? i := hasks (o?, slot, i) (List.mem_append_right _ List.mem_cons_self)
    rw [after_concat]
    cases hlast with
    | @settle o _ hi hauth =>
      rw [served_concat_settle] at hnodup hseats hfit
      rw [List.map_append, List.sum_append, List.map_singleton, List.sum_singleton] at hfit
      obtain ⟨hold, -, hnew⟩ := List.nodup_append.mp hnodup
      have ho : o ∉ Calls.served calls := fun hc => hnew o hc o List.mem_cons_self rfl
      obtain ⟨s, hs⟩ := hseats o (List.mem_append_right _ List.mem_cons_self)
      have hprior := ih hbefore hold (fun o ho => hseats o (List.mem_append_left _ ho)) hfit.left
      exact (hprior.settle hface hcatch hs ho hi hauth hfit).2
    | advance hi hauth =>
      rw [served_concat_advance] at hnodup hseats hfit
      exact (ih hbefore hnodup hseats hfit).advance hface hcatch hi hauth

/-- Wherever a call to settle a seat stands, its answer is that on the ledger before all calls. -/
theorem answer_settled {before after : Calls} {call : Nat × Instruction}
    (hface : l.Facing n config t r roll) (hcatch : t.catchUp n roll = .ok rolled)
    (hcover : l.ChipsCover) (hcalls : calls = before ++ (some o, call) :: after)
    (hasks : ∀ c ∈ calls, Asks n c.1 c.2.2) (hnodup : calls.served.Nodup)
    (hseats : ∀ o ∈ calls.served, ∃ s, l.load .seat (.seat o) = .ok s)
    (hfit : t.CountersFit (calls.served.map (l.due n)).sum) :
    refusal? (before.after l) call = declined? l n o := by
  obtain ⟨slot, i⟩ := call
  have hserved : calls.served = before.served ++ o :: after.served :=
    hcalls ▸ served_append before ((some o, slot, i) :: after)
  rw [hserved] at hnodup hseats hfit
  rw [List.map_append, List.sum_append, List.map_cons, List.sum_cons, ← add_assoc] at hfit
  obtain ⟨hold, -, hnew⟩ := List.nodup_append.mp hnodup
  have ho : o ∉ before.served := fun hc => hnew o hc o List.mem_cons_self rfl
  obtain ⟨s, hs⟩ := hseats o (List.mem_append_right _ List.mem_cons_self)
  have hprior : Midway l n t rolled.1 before (before.after l) :=
    midway_after hface hcatch hcover
      (fun c hc => hasks c (hcalls ▸ List.mem_append_left _ hc)) hold
      (fun o ho => hseats o (List.mem_append_left _ ho)) hfit.left.left
  have hlast : Asks n (some o) i :=
    hasks (some o, slot, i) (hcalls ▸ List.mem_append_right _ List.mem_cons_self)
  cases hlast with
  | settle hi hauth => exact (hprior.settle hface hcatch hs ho hi hauth hfit.left).1

/-- A round that the table cannot take next is refused to every call. -/
theorem process_of_far {f : Fault} {o? : Option Address} (hface : l.Facing n config t r roll)
    (hcatch : t.catchUp n roll = .error f) (hi : Asks n o? i)
    (hseat : ∀ o ∈ o?, ∃ s, l.load .seat (.seat o) = .ok s) :
    process slot i l = .error (.fault f) := by
  cases hi with
  | @settle o _ hi hauth =>
    obtain ⟨s, hs⟩ := hseat o rfl
    obtain rfl : s.owner = o := hface.owners o s hs
    exact (settle_call_turn slot hi hface.settings hface.table hs hface.round hface.number
      hface.shown).2.2 f hcatch
  | advance hi hauth =>
    exact (advance_call slot hi hface.table hface.round hface.number hface.shown).2 f hcatch

/-- So such calls change nothing. -/
theorem after_of_far {f : Fault} (hface : l.Facing n config t r roll)
    (hcatch : t.catchUp n roll = .error f) (hasks : ∀ c ∈ calls, Asks n c.1 c.2.2)
    (hseats : ∀ o ∈ calls.served, ∃ s, l.load .seat (.seat o) = .ok s) : calls.after l = l := by
  induction calls using List.reverseRecOn with
  | nil => rfl
  | append_singleton calls c ih =>
    obtain ⟨o?, slot, i⟩ := c
    rw [served_append] at hseats
    have hprior : Calls.after calls l = l :=
      ih (fun c hc => hasks c (List.mem_append_left _ hc))
        fun o ho => hseats o (List.mem_append_left _ ho)
    have hrefused : process slot i l = .error (.fault f) := by
      refine process_of_far hface hcatch
        (hasks (o?, slot, i) (List.mem_append_right _ List.mem_cons_self)) fun o ho => ?_
      cases ho
      exact hseats o (List.mem_append_right _ List.mem_cons_self)
    rw [after_concat, hprior, step_of_refused hrefused]

theorem answer_of_far {f : Fault} {before after : Calls} {call : Nat × Instruction}
    (hface : l.Facing n config t r roll) (hcatch : t.catchUp n roll = .error f)
    (hcalls : calls = before ++ (some o, call) :: after) (hasks : ∀ c ∈ calls, Asks n c.1 c.2.2)
    (hseats : ∀ o ∈ calls.served, ∃ s, l.load .seat (.seat o) = .ok s) :
    refusal? (before.after l) call = declined? l n o := by
  rw [hcalls, served_append] at hseats
  obtain ⟨s, hs⟩ := hseats o (List.mem_append_right _ List.mem_cons_self)
  have hbefore : Calls.after before l = l :=
    after_of_far hface hcatch (fun c hc => hasks c (hcalls ▸ List.mem_append_left _ hc))
      fun b hb => hseats b (List.mem_append_left _ hb)
  have hrefused : process call.1 call.2 l = .error (.fault f) := by
    refine process_of_far hface hcatch
      (hasks (some o, call) (hcalls ▸ List.mem_append_right _ List.mem_cons_self)) fun b hb => ?_
    cases hb
    exact ⟨s, hs⟩
  unfold refusal? declined?
  rw [hbefore, hrefused, hface.judged_of_error hs hcatch]

/-- Two schedules in which the table was moved alike leave the same table and the same seats. -/
theorem Midway.agree {m' : Ledger} {other : Calls} (h : Midway l n t caught calls m)
    (h' : Midway l n t caught other m') (hserved : calls.served.Perm other.served)
    (hmoved : Moved l n calls ↔ Moved l n other) :
    m.load .table .table = m'.load .table .table ∧
      ∀ o, m.load .seat (.seat o) = m'.load .seat (.seat o) := by
  obtain ⟨u, hu, hstill, hbooked⟩ := h.table
  obtain ⟨u', hu', hstill', hbooked'⟩ := h'.table
  constructor
  · rw [hu, hu']
    by_cases hm : Moved l n calls
    · have hsame := hbooked' (hmoved.mp hm)
      rw [← (hserved.map (l.due n)).sum_eq, ← (hserved.map (l.bookings n)).sum_eq] at hsame
      rw [(hbooked hm).unique hsame]
    · rw [hstill hm, hstill' fun hc => hm (hmoved.mpr hc)]
  · intro o
    rw [h.seats, h'.seats]
    simp only [hserved.mem_iff]

/-- Schedules for the same players move the table alike if one of the settlements is granted, or no
other calls stand between. -/
theorem moved_congr {other : Calls} (hserved : calls.served.Perm other.served)
    (hdone : (∃ o ∈ calls.served, declined? l n o = none) ∨
      ∀ c, c ∈ calls ∨ c ∈ other → c.1 ≠ none) : Moved l n calls ↔ Moved l n other := by
  unfold Moved
  rcases hdone with ⟨o, ho, hgranted⟩ | hnone
  · exact iff_of_true (.inr ⟨o, ho, hgranted⟩) (.inr ⟨o, hserved.mem_iff.mp ho, hgranted⟩)
  · have hcalls : ¬∃ c ∈ calls, c.1 = none := fun ⟨c, hc, hn⟩ => hnone c (.inl hc) hn
    have hother : ¬∃ c ∈ other, c.1 = none := fun ⟨c, hc, hn⟩ => hnone c (.inr hc) hn
    simp only [hcalls, hother, false_or, hserved.mem_iff]

/-- Take a reachable ledger, a resolved round and different players with a seat, and let the table's
lifetime totals have room for what their settlements book. In whatever order their seats are settled
against the round, and wherever calls stand between that only bring the table up to it, each
settlement gets the same answer. If one of them is granted, or no other calls stand between, the
table and the seats that are left are the same too, and nothing else has changed. -/
theorem settlements_commute {owners : List Address} (h : Reachable Authentic Ledger.Outside l)
    (ht : l.load .table .table = .ok t) (hr : l.load .round (.round n) = .ok r)
    (hresolved : r.isResolved = true) (hnodup : owners.Nodup)
    (hseats : ∀ o ∈ owners, ∃ s, l.load .seat (.seat o) = .ok s)
    (hfit : t.CountersFit (owners.map (l.due n)).sum) :
    ∃ refusal : Address → Option Refusal, ∀ calls : Calls, calls.Settle n owners →
      (∀ before o call after, calls = before ++ (some o, call) :: after →
        refusal? (Calls.after before l) call = refusal o) ∧
      ∀ other : Calls, other.Settle n owners →
        (∃ o ∈ owners, refusal o = none) ∨ (∀ c, c ∈ calls ∨ c ∈ other → c.1 ≠ none) →
        (calls.after l).load .table .table = (other.after l).load .table .table ∧
        (∀ o, (calls.after l).load .seat (.seat o) = (other.after l).load .seat (.seat o)) ∧
        ∀ a, a ≠ .table → (∀ o ∈ owners, a ≠ .seat o) → Agree l (calls.after l) a := by
  obtain ⟨current, rolls, hu⟩ := (h.inStep fun _ _ ho => ho).underway ht
  obtain ⟨config, hconfig⟩ := hu.configured
  obtain ⟨-, hid, square, hroll⟩ := hu.roll_of_isResolved hr hresolved
  have hface : l.Facing n config t r (.ofSquare square) :=
    ⟨hconfig, ht, hr, hid, hroll, ⟨square, rfl⟩, fun o s hs => (hu.seats o s hs).1⟩
  have hserved : ∀ {calls : Calls}, calls.Settle n owners → calls.served.Nodup ∧
      (∀ o ∈ calls.served, ∃ s, l.load .seat (.seat o) = .ok s) ∧
      t.CountersFit (calls.served.map (l.due n)).sum := by
    intro calls hcalls
    refine ⟨hcalls.served.nodup_iff.mpr hnodup,
      fun o ho => hseats o (hcalls.served.mem_iff.mp ho), ?_⟩
    rwa [(hcalls.served.map (l.due n)).sum_eq]
  refine ⟨declined? l n, fun calls hcalls => ?_⟩
  obtain ⟨hdistinct, hthere, hroom⟩ := hserved hcalls
  cases hcatch : t.catchUp n (.ofSquare square) with
  | error f =>
    -- the table cannot take the roll yet, so every call is refused
    refine ⟨fun before o call after hsplit => ?_, fun other hother _ => ?_⟩
    · exact answer_of_far hface hcatch hsplit hcalls.asks hthere
    · rw [after_of_far hface hcatch hcalls.asks hthere,
        after_of_far hface hcatch hother.asks (hserved hother).2.1]
      exact ⟨rfl, fun _ => rfl, fun a _ _ => .refl l a⟩
  | ok rolled =>
    refine ⟨fun before o call after hsplit => ?_, fun other hother hdone => ?_⟩
    · exact answer_settled hface hcatch h.chipsCover hsplit hcalls.asks hdistinct hthere hroom
    · obtain ⟨hdistinct', hthere', hroom'⟩ := hserved hother
      have hm := midway_after hface hcatch h.chipsCover hcalls.asks hdistinct hthere hroom
      have hm' := midway_after hface hcatch h.chipsCover hother.asks hdistinct' hthere' hroom'
      have hperm : calls.served.Perm other.served := hcalls.served.trans hother.served.symm
      have hdone' : (∃ o ∈ calls.served, declined? l n o = none) ∨
          ∀ c, c ∈ calls ∨ c ∈ other → c.1 ≠ none := by
        simpa only [hcalls.served.mem_iff] using hdone
      obtain ⟨htable, hsame⟩ := hm.agree hm' hperm (moved_congr hperm hdone')
      refine ⟨htable, hsame, fun a hat ha => hm.rest a hat fun o ho => ?_⟩
      exact ha o (hcalls.served.mem_iff.mp ho)

/-! ## Two seats -/

/-- Another player than the admin. -/
def guest : Address := .key (Bytes.fill32 1)

/-- After the admin's first bet, the guest is given chips and bets 20 on the field; then round 1 is
resolved with five and three. -/
def twoSeats : Ledger :=
  run ((run (firstBet.withWallet guest .crap 100) [(2, Client.bet guest .field 0 20)]).withHistory
    [⟨149, Bytes.fill32 0⟩, ⟨150, Bytes.fill32 7⟩]) [(150, resolveFirst)]

theorem reachable_twoSeats : Reachable Authentic Ledger.Outside twoSeats := by
  have hfirst : Reachable Authentic Ledger.Outside firstBet :=
    reachable_firstBet fun _ _ ho => ho.toOutside
  have hguest : guest.seeds? = none := rfl
  refine (((hfirst.other (Ledger.outside_withWallet _ _ _ hguest)).run ?_).other
    (Ledger.outside_withHistory _ _)).run ?_
  · simp only [List.forall_mem_singleton]
    exact .of_first rfl (by decide)
  · simp only [List.forall_mem_singleton]
    exact .of_first rfl (by decide)

/-- Both can be settled; the guest loses 20. -/
theorem twoSeats_moment :
    (twoSeats.load .table .table).toOption.map (fun t => (t.totalCollected, t.totalPayouts))
      = some (0, 0) ∧
    (twoSeats.load .round (.round 1)).toOption.map Round.isResolved = some true ∧
    [Address.admin, guest].map (fun o => ((twoSeats.load .seat (.seat o)).toOption.isSome,
      (twoSeats.due 1 o).lost, (twoSeats.due 1 o).profit,
      refusal? twoSeats (151, Client.settle .admin o 1)))
      = [(true, 0, 0, none), (true, 20, 0, none)] := by
  decide +kernel

/-- The admin's seat is settled, then the guest's. -/
def adminFirst : Calls :=
  [(some .admin, 151, Client.settle .admin .admin 1), (some guest, 152, Client.settle .admin guest 1)]

/-- The guest's seat is settled first, and a call to bring the table up comes before the admin's. -/
def guestFirst : Calls :=
  [(some guest, 151, Client.settle .admin guest 1), (none, 152, Client.advance guest 1),
    (some .admin, 153, Client.settle guest .admin 1)]

theorem settle_adminFirst : adminFirst.Settle 1 [.admin, guest] where
  asks := by
    intro c hc
    rcases List.mem_pair.mp hc with rfl | rfl
    · exact .settle (settleCall_client _ _ _) (.of_first rfl (by decide))
    · exact .settle (settleCall_client _ _ _) (.of_first rfl (by decide))
  served := .refl _

theorem settle_guestFirst : guestFirst.Settle 1 [.admin, guest] where
  asks := by
    intro c hc
    unfold guestFirst at hc
    simp only [List.mem_cons, List.not_mem_nil, or_false] at hc
    rcases hc with rfl | rfl | rfl
    · exact .settle (settleCall_client _ _ _) (.of_first rfl (by decide))
    · exact .advance (advanceCall_client _ _) (.of_first rfl (by decide))
    · exact .settle (settleCall_client _ _ _) (.of_first rfl (by decide))
  served := .swap _ _ _

/-- What is due at two seats comes to the sum of both. -/
theorem sum_due_pair (due : Address → Tally) (o o' : Address) :
    ([o, o'].map due).sum.lost = (due o).lost + (due o').lost ∧
      ([o, o'].map due).sum.profit = (due o).profit + (due o').profit := by
  rw [List.map_cons, List.map_cons, List.map_nil, List.sum_cons, List.sum_cons, List.sum_nil,
    add_zero]
  exact ⟨Tally.lost_add _ _, Tally.profit_add _ _⟩

/-- Whoever comes first, the other is granted too, and the table that they leave is the same. -/
theorem settlements_commute_twoSeats :
    Reachable Authentic Ledger.Outside twoSeats ∧ [Address.admin, guest].Nodup ∧
      ∃ t r, twoSeats.load .table .table = .ok t ∧ twoSeats.load .round (.round 1) = .ok r ∧
        r.isResolved = true ∧ t.CountersFit ([Address.admin, guest].map (twoSeats.due 1)).sum ∧
        (twoSeats.due 1 guest).lost = 20 ∧
        adminFirst.Settle 1 [.admin, guest] ∧ guestFirst.Settle 1 [.admin, guest] ∧
        refusal? (Calls.after (adminFirst.take 1) twoSeats)
          (152, Client.settle .admin guest 1) = none ∧
        refusal? (Calls.after (guestFirst.take 2) twoSeats)
          (153, Client.settle guest .admin 1) = none ∧
        (adminFirst.after twoSeats).load .table .table
          = (guestFirst.after twoSeats).load .table .table := by
  obtain ⟨htotals, hround, hboth⟩ := twoSeats_moment
  obtain ⟨t, ht, htotals⟩ := exists_of_toOption_map htotals
  obtain ⟨r, hr, hresolved⟩ := exists_of_toOption_map hround
  simp only [List.map_cons, List.map_nil, List.cons.injEq, Prod.mk.injEq, and_true] at hboth
  obtain ⟨⟨hadmin, hlost, hprofit, hgranted⟩, hguest, hlost', hprofit', hgranted'⟩ := hboth
  have hnodup : [Address.admin, guest].Nodup := by decide
  have hseats : ∀ o ∈ [Address.admin, guest], ∃ s, twoSeats.load .seat (.seat o) = .ok s := by
    intro o ho
    have hsome : (twoSeats.load .seat (.seat o)).toOption.isSome = true := by
      rcases List.mem_pair.mp ho with rfl | rfl
      · exact hadmin
      · exact hguest
    obtain ⟨s, hs⟩ := Option.isSome_iff_exists.mp hsome
    exact ⟨s, toOption_eq_some_iff.mp hs⟩
  have hfit : t.CountersFit ([Address.admin, guest].map (twoSeats.due 1)).sum := by
    obtain ⟨hcollected, hpayouts⟩ := Prod.mk.inj htotals
    obtain ⟨hlosts, hprofits⟩ := sum_due_pair (twoSeats.due 1) .admin guest
    rw [hlost, hlost'] at hlosts
    rw [hprofit, hprofit'] at hprofits
    unfold Table.CountersFit
    rw [hcollected, hpayouts, hlosts, hprofits]
    decide
  obtain ⟨refusal, hcommute⟩ :=
    settlements_commute reachable_twoSeats ht hr hresolved hnodup hseats hfit
  obtain ⟨hanswers, hends⟩ := hcommute adminFirst settle_adminFirst
  obtain ⟨hanswers', -⟩ := hcommute guestFirst settle_guestFirst
  -- the first of each schedule shows how its player is answered in the other
  have hfirst := hanswers [] .admin _ _ rfl
  have hfirst' := hanswers' [] guest _ _ rfl
  rw [after_nil] at hfirst hfirst'
  have hadminGranted : refusal .admin = none := hfirst.symm.trans hgranted
  have hguestGranted : refusal guest = none := hfirst'.symm.trans hgranted'
  have hsecond := hanswers (adminFirst.take 1) guest _ _ rfl
  have hthird := hanswers' (guestFirst.take 2) .admin _ _ rfl
  obtain ⟨htable, -⟩ :=
    hends guestFirst settle_guestFirst (.inl ⟨.admin, List.mem_cons_self, hadminGranted⟩)
  exact ⟨reachable_twoSeats, hnodup, t, r, ht, hr, hresolved, hfit, hlost', settle_adminFirst,
    settle_guestFirst, hsecond.trans hguestGranted, hthird.trans hadminGranted, htable⟩

end House

end DiceHouse
