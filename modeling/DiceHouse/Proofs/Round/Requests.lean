import DiceHouse.Proofs.Round.Pool

/-!
# Who answers a request to stake

A request to stake is answered in two parts. The ticket looks at the request alone: whether the
square exists and is new to it, and whether the prediction is one that it can have. Then the round
and the ticket are asked for room in their sums. So every refusal but one for want of room hangs on
the ticket's own history, and what is granted is written by `Round.put` and `Ticket.put`.

Among the players of a round, `Pool.step_cases` tells all that can become of an order, and
`Pool.run_induction` carries what a granted stake keeps through any orders.
-/

namespace DiceHouse

namespace Ticket

variable {κ : Type}

/-- What a ticket says to a request: the square that is meant and the prediction in force. -/
def answer (t : Ticket κ) (square amount prediction : Nat) : Except Fault (Square × Nat) := do
  let s ← Square.ofNumber square
  require (0 < amount) .invalidAmount
  require (t.staked.get s = 0) .alreadyStaked
  let prediction ← t.fixPrediction prediction
  return (s, prediction)

/-- The ticket with a stake on a square, which lies there above so much of others. -/
def put (t : Ticket κ) (s : Square) (amount before prediction : Nat) : Ticket κ := { t with
  staked := t.staked.set s amount s.isLt
  before := t.before.set s before s.isLt
  total := t.total + amount
  prediction }

variable {t : Ticket κ} {square amount prediction : Nat} {fault : Fault}

/-- A ticket that is asked is never out of room. -/
theorem answer_ne_overflow : t.answer square amount prediction ≠ .error .overflow := by
  unfold answer fixPrediction Square.ofNumber require
  intro h
  simp only [bind_eq_error_iff] at h
  rcases h with h | ⟨s, -, h | ⟨-, -, h | ⟨-, -, h | ⟨p, -, h⟩⟩⟩⟩
  · split at h <;> cases h
  · split at h <;> cases h
  · split at h <;> cases h
  · rcases h with h | ⟨-, -, h⟩
    · split at h <;> cases h
    · split at h
      · cases h
      · rcases bind_eq_error_iff.mp h with h | ⟨-, -, h⟩
        · split at h <;> cases h
        · cases h
  · cases h

/-- What a ticket answers hangs on its stakes and its prediction. -/
theorem answer_congr {u : Ticket κ} (hstaked : u.staked = t.staked) (htotal : u.total = t.total)
    (hprediction : u.prediction = t.prediction) (square amount prediction : Nat) :
    u.answer square amount prediction = t.answer square amount prediction := by
  unfold answer fixPrediction
  rw [hstaked, htotal, hprediction]

/-- Any amount will do but none. -/
theorem answer_of_pos (hpos : 0 < amount) :
    t.answer square amount prediction = t.answer square 1 prediction := by
  unfold answer
  rw [require_of_true hpos, require_of_true Nat.zero_lt_one]

theorem eq_of_answer {s s' : Square} {p : Nat}
    (h : t.answer s.val amount prediction = .ok (s', p)) : s' = s := by
  unfold answer at h
  rw [Square.ofNumber_val, ok_bind] at h
  simp only [bind_eq_ok_iff, pure_eq_ok_iff] at h
  obtain ⟨-, -, -, -, q, -, h⟩ := h
  exact (Prod.mk.inj h).1.symm

end Ticket

namespace Round

variable {κ : Type} {r : Round κ} {t : Ticket κ} {s : Square}
  {square amount prediction p : Nat} {fault : Fault}

/-- The round with a stake on a square. -/
def put (r : Round κ) (s : Square) (amount prediction : Nat) : Round κ := { r with
  staked := r.staked.set s (r.staked.get s + amount) s.isLt
  predicted := r.predicted.set s
    (r.predicted.get s + if prediction = (Roll.ofSquare s).sum then amount else 0) s.isLt
  tickets := r.tickets.set s (Amount.addSaturating (r.tickets.get s) 1) s.isLt
  totalStaked := r.totalStaked + amount }

/-- Whether every sum that a stake adds to stays an amount. -/
def HasRoom (r : Round κ) (t : Ticket κ) (s : Square) (amount prediction : Nat) : Prop :=
  r.staked.get s + amount < Amount.limit ∧ r.totalStaked + amount < Amount.limit ∧
    r.predicted.get s + (if prediction = (Roll.ofSquare s).sum then amount else 0)
      < Amount.limit ∧
    t.total + amount < Amount.limit

instance (r : Round κ) (t : Ticket κ) (s : Square) (amount prediction : Nat) :
    Decidable (r.HasRoom t s amount prediction) :=
  inferInstanceAs (Decidable (_ ∧ _))

/-- A stake is refused on a resolved round, by the ticket or for want of room, in this order. -/
theorem stake_eq (r : Round κ) (t : Ticket κ) (square amount prediction : Nat) :
    r.stake t square amount prediction = do
      require (¬r.isResolved) .alreadyResolved
      let asked ← t.answer square amount prediction
      require (r.HasRoom t asked.1 amount asked.2) .overflow
      return (r.put asked.1 amount asked.2,
        t.put asked.1 amount (r.staked.get asked.1) asked.2) := by
  rw [stake_eq_onCopy]
  unfold stakeOnCopy Ticket.answer
  simp only [bind_assoc, pure_bind]
  refine bind_congr fun _ => bind_congr fun s => bind_congr fun _ => bind_congr fun _ =>
    bind_congr fun p => ?_
  by_cases hroom : r.HasRoom t s amount p
  · rw [require_of_true hroom, ok_bind]
    obtain ⟨hsquare, htotal, hright, hticket⟩ := hroom
    rw [Amount.add_of_lt hsquare, ok_bind, Amount.add_of_lt htotal, ok_bind,
      Amount.add_of_lt hright, ok_bind, Amount.add_of_lt hticket, ok_bind]
    rfl
  · rw [require, if_neg hroom, error_bind]
    -- the first of the four sums that is too large refuses
    rcases Nat.lt_or_ge (r.staked.get s + amount) Amount.limit with hsquare | hsquare
    · rw [Amount.add_of_lt hsquare, ok_bind]
      rcases Nat.lt_or_ge (r.totalStaked + amount) Amount.limit with htotal | htotal
      · rw [Amount.add_of_lt htotal, ok_bind]
        rcases Nat.lt_or_ge (r.predicted.get s + if p = (Roll.ofSquare s).sum then amount else 0)
          Amount.limit with hright | hright
        · rw [Amount.add_of_lt hright, ok_bind]
          have hticket : Amount.limit ≤ t.total + amount :=
            Nat.le_of_not_lt fun h => hroom ⟨hsquare, htotal, hright, h⟩
          rw [Amount.add_of_le hticket, error_bind]
        · rw [Amount.add_of_le hright, error_bind]
      · rw [Amount.add_of_le htotal, error_bind]
    · rw [Amount.add_of_le hsquare, error_bind]

section Open

variable (hopen : r.winner = none)
include hopen

theorem stake_of_open : r.stake t square amount prediction = do
    let asked ← t.answer square amount prediction
    require (r.HasRoom t asked.1 amount asked.2) .overflow
    return (r.put asked.1 amount asked.2,
      t.put asked.1 amount (r.staked.get asked.1) asked.2) := by
  rw [stake_eq, require_of_true (by simp [isResolved, hopen]), ok_bind]

/-- What the ticket refuses is refused. -/
theorem stake_of_answer_error (h : t.answer square amount prediction = .error fault) :
    r.stake t square amount prediction = .error fault := by
  rw [stake_of_open hopen, h, error_bind]

/-- What the ticket accepts is granted where there is room, -/
theorem stake_of_hasRoom (h : t.answer square amount prediction = .ok (s, p))
    (hroom : r.HasRoom t s amount p) :
    r.stake t square amount prediction
      = .ok (r.put s amount p, t.put s amount (r.staked.get s) p) := by
  rw [stake_of_open hopen, h, ok_bind, require_of_true hroom, ok_bind]
  rfl

/-- and refused where there is none. -/
theorem stake_of_not_hasRoom (h : t.answer square amount prediction = .ok (s, p))
    (hroom : ¬r.HasRoom t s amount p) :
    r.stake t square amount prediction = .error .overflow := by
  rw [stake_of_open hopen, h, ok_bind, require, if_neg hroom, error_bind]

end Open

end Round

namespace Pool

variable {ι κ : Type} [DecidableEq ι] {p : Pool ι κ} {o : Order ι} {s : Square} {prediction : Nat}
  {fault : Fault}

/-- What the player's ticket says to it. -/
def asked (p : Pool ι κ) (o : Order ι) : Except Fault (Square × Nat) :=
  (p.ticket o.player).answer o.square o.amount o.prediction

/-- The pool with a stake of one of the players. -/
def grant (p : Pool ι κ) (i : ι) (s : Square) (amount prediction : Nat) : Pool ι κ where
  round := p.round.put s amount prediction
  ticket := Function.update p.ticket i
    ((p.ticket i).put s amount (p.round.staked.get s) prediction)

/-! ## One order -/

theorem ticket_grant_self (p : Pool ι κ) (i : ι) (s : Square) (amount prediction : Nat) :
    (p.grant i s amount prediction).ticket i
      = (p.ticket i).put s amount (p.round.staked.get s) prediction :=
  Function.update_self i _ p.ticket

theorem ticket_grant_of_ne {i j : ι} (h : j ≠ i) (s : Square) (amount prediction : Nat) :
    (p.grant i s amount prediction).ticket j = p.ticket j :=
  Function.update_of_ne h _ p.ticket

section Open

variable (hopen : p.round.winner = none)
include hopen

/-- What the ticket refuses changes nothing. -/
theorem refused_of_asked (h : p.asked o = .error fault) :
    p.answer o = .error fault ∧ p.step o = p :=
  step_of_refused (Round.stake_of_answer_error hopen h)

theorem granted_of_asked (h : p.asked o = .ok (s, prediction))
    (hroom : p.round.HasRoom (p.ticket o.player) s o.amount prediction) :
    p.answer o = .ok () ∧ p.step o = p.grant o.player s o.amount prediction :=
  step_of_stake (Round.stake_of_hasRoom hopen h hroom)

/-- Nor does what the round has no room for. -/
theorem overflow_of_asked (h : p.asked o = .ok (s, prediction))
    (hroom : ¬p.round.HasRoom (p.ticket o.player) s o.amount prediction) :
    p.answer o = .error .overflow ∧ p.step o = p :=
  step_of_refused (Round.stake_of_not_hasRoom hopen h hroom)

/-- All that can become of an order. -/
theorem step_cases (o : Order ι) :
    (∃ fault, p.asked o = .error fault ∧ p.answer o = .error fault ∧ p.step o = p) ∨
    (∃ s prediction, p.asked o = .ok (s, prediction) ∧
      p.round.HasRoom (p.ticket o.player) s o.amount prediction ∧
      p.answer o = .ok () ∧ p.step o = p.grant o.player s o.amount prediction) ∨
    (∃ s prediction, p.asked o = .ok (s, prediction) ∧
      ¬p.round.HasRoom (p.ticket o.player) s o.amount prediction ∧
      p.answer o = .error .overflow ∧ p.step o = p) := by
  cases hasked : p.asked o with
  | error fault => exact .inl ⟨fault, rfl, refused_of_asked hopen hasked⟩
  | ok asked =>
    obtain ⟨s, prediction⟩ := asked
    by_cases hroom : p.round.HasRoom (p.ticket o.player) s o.amount prediction
    · exact .inr (.inl ⟨s, prediction, rfl, hroom, granted_of_asked hopen hasked hroom⟩)
    · exact .inr (.inr ⟨s, prediction, rfl, hroom, overflow_of_asked hopen hasked hroom⟩)

end Open

/-! ## Orders one after another -/

/-- An order changes nothing, or it is granted. -/
theorem step_eq_or_grant (p : Pool ι κ) (o : Order ι) :
    p.step o = p ∨ ∃ s prediction, p.round.HasRoom (p.ticket o.player) s o.amount prediction ∧
      p.step o = p.grant o.player s o.amount prediction := by
  cases hwinner : p.round.winner with
  | some number =>
    left
    have hclosed : ¬¬p.round.isResolved := by simp [Round.isResolved, hwinner]
    have hrefused : p.round.stake (p.ticket o.player) o.square o.amount o.prediction =
        .error .alreadyResolved := by
      rw [Round.stake_eq, require, if_neg hclosed, error_bind]
    exact (step_of_refused hrefused).2
  | none =>
    rcases step_cases hwinner o with ⟨-, -, -, hstep⟩ | ⟨s, prediction, -, hroom, -, hstep⟩ |
      ⟨-, -, -, -, -, hstep⟩
    · exact .inl hstep
    · exact .inr ⟨s, prediction, hroom, hstep⟩
    · exact .inl hstep

/-- What every granted stake keeps, any orders keep. -/
theorem run_induction {motive : Pool ι κ → Prop}
    (hgrant : ∀ (p : Pool ι κ) (i : ι) (s : Square) (amount prediction : Nat), motive p →
      p.round.HasRoom (p.ticket i) s amount prediction → motive (p.grant i s amount prediction))
    (h : motive p) (orders : List (Order ι)) : motive (p.run orders) := by
  induction orders generalizing p with
  | nil => exact h
  | cons o orders ih =>
    refine ih (p := p.step o) ?_
    rcases step_eq_or_grant p o with hstep | ⟨s, prediction, hroom, hstep⟩
    · rw [hstep]
      exact h
    · rw [hstep]
      exact hgrant p o.player s o.amount prediction h hroom

/-- Stakes leave a round open, -/
theorem winner_run (hopen : p.round.winner = none) (orders : List (Order ι)) :
    (p.run orders).round.winner = none := by
  refine run_induction (motive := fun p => p.round.winner = none) ?_ hopen orders
  intro p i s amount prediction hopen _
  exact hopen

theorem winner_step (hopen : p.round.winner = none) (o : Order ι) :
    (p.step o).round.winner = none :=
  winner_run hopen [o]

/-- and its whole stake an amount. -/
theorem totalStaked_run_lt (h : p.round.totalStaked < Amount.limit) (orders : List (Order ι)) :
    (p.run orders).round.totalStaked < Amount.limit := by
  refine run_induction (motive := fun p => p.round.totalStaked < Amount.limit) ?_ h orders
  rintro p i s amount prediction - ⟨-, htotal, -⟩
  exact htotal

/-- They change the sums of a round and its counts of tickets. -/
theorem round_run (p : Pool ι κ) (orders : List (Order ι)) :
    (p.run orders).round = { p.round with
      staked := (p.run orders).round.staked
      predicted := (p.run orders).round.predicted
      tickets := (p.run orders).round.tickets
      totalStaked := (p.run orders).round.totalStaked } := by
  refine run_induction (motive := fun q => q.round = { p.round with
    staked := q.round.staked
    predicted := q.round.predicted
    tickets := q.round.tickets
    totalStaked := q.round.totalStaked }) ?_ rfl orders
  intro q i s amount prediction hq _
  exact congrArg (fun r => r.put s amount prediction) hq

/-! ## The others -/

/-- An order leaves the tickets of all but its player alone. -/
theorem ticket_step_of_ne {i : ι} (h : o.player ≠ i) : (p.step o).ticket i = p.ticket i :=
  Function.update_of_ne h.symm _ p.ticket

/-- A player who orders nothing keeps the ticket. -/
theorem ticket_run_of_ne {i : ι} {orders : List (Order ι)} (h : ∀ o ∈ orders, o.player ≠ i) :
    (p.run orders).ticket i = p.ticket i := by
  induction orders generalizing p with
  | nil => rfl
  | cons o orders ih =>
    have hfirst : (p.step o).ticket i = p.ticket i :=
      ticket_step_of_ne (h o List.mem_cons_self)
    have hrest : ((p.step o).run orders).ticket i = (p.step o).ticket i :=
      ih fun o' ho' => h o' (List.mem_cons_of_mem o ho')
    exact hrest.trans hfirst

theorem run_cons (p : Pool ι κ) (o : Order ι) (orders : List (Order ι)) :
    p.run (o :: orders) = (p.step o).run orders := rfl

end Pool

end DiceHouse
